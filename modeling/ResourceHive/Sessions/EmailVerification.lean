import ResourceHive.Sessions.SignInMethods

/-!
# Sessions/EmailVerification — links that verify an email, among all calls of the service

`AuthService.resendVerificationEmail`, `verifyEmail` and `getEmailVerificationStatus`, interleaved
with the calls of `GoogleSignIn` and of the modules below it.  What `verifyEmail` does to memberships
is `Organizations/AutoApproval`; here it is the claim of its token and the update of its user.

**A user who is there unverified is verified by a link that was made for him, and in no other way**
(`verified_by_link`): no link is claimed twice, and what a link's status is only goes forward
(`link_status_monotone`).  A request for a new link uses the links that it sees.  Where no two
requests of a user overlap he has one live link at most (`one_live_link`); two that do overlap do not
see each other's, and leave two (`two_live_links`).
-/

namespace ResourceHive.Sessions.EmailVerification

open Organizations (EmailVerificationToken VerifyError getEmailDomain)
open GoogleSignIn (Configuration sampleConfiguration)

/-! ## The calls -/

abbrev Database := GoogleSignIn.Database

/-- A verification: the token that was presented, the row it has claimed, and when. -/
structure Verification where
  token : String
  tokenId : Uuid
  userId : Uuid
  now : Timestamp
  deriving DecidableEq, Repr

inductive LinkStatus
  | pending
  | expired
  | verified
  deriving DecidableEq, Repr

namespace LinkStatus

def rank : LinkStatus → ℕ
  | pending => 0
  | expired => 1
  | verified => 2

end LinkStatus

/-- What `verifyEmail` throws, and the status of a link that there is not. -/
inductive LinkError
  | verify (e : VerifyError)
  | unknownLink
  deriving DecidableEq, Repr

namespace LinkError

def status : LinkError → ℕ
  | verify e => e.status
  | unknownLink => 400

def message : LinkError → String
  | verify e => e.message
  | unknownLink => "Verification link is invalid"

end LinkError

/-- Where a call is. -/
inductive Point
  /-- In one of the other calls. -/
  | account (p : GoogleSignIn.Point)
  | resendVerificationEmail (email : String)
  | resendRecent (user : User)
  | resendTransaction (user : User)
  | resending (userId : Uuid) (ids : List Uuid) (now : Timestamp) (token : EmailVerificationToken)
  | requested
  | verifyEmail (token : String)
  | verifyLookup (token : String) (now : Timestamp)
  | verifyDomain (email : String) (v : Verification)
  | verifying (v : Verification)
  /-- A message that the email is verified, or already was. -/
  | verified
  | getEmailVerificationStatus (token : String)
  | answered (status : LinkStatus)
  | threw (e : LinkError)
  /-- Something else was thrown. -/
  | failed
  deriving DecidableEq

inductive Statement
  | account (w : GoogleSignIn.Statement)
  /-- `updateMany` of one unused, unexpired token. -/
  | claimLink (id : Uuid) (now : Timestamp)
  /-- `updateMany` of a user's unused, unexpired tokens. -/
  | claimLinks (userId : Uuid) (ids : List Uuid) (now : Timestamp)
  | verifyUser (userId : Uuid) (now : Timestamp)

/-- Unused, and unexpired at a time. -/
def open? (now : Timestamp) (k : EmailVerificationToken) : Bool :=
  k.usedAt.isNone && decide (now < k.expiresAt)

def used (now : Timestamp) (k : EmailVerificationToken) : EmailVerificationToken :=
  { k with usedAt := some now }

/-- **One statement**; rejected by a constraint, by a count that is not one, or for want of its
record. -/
def Statement.exec : Statement → Database → Option Database
  | .account w, db => w.exec db
  | .claimLink id now, db =>
    let claimable (k : EmailVerificationToken) : Bool := decide (k.id = id) && open? now k
    if db.verificationTokens.rows.any claimable then
      (db.verificationTokens.update claimable (used now)).map fun verificationTokens =>
        { db with verificationTokens }
    else none
  | .claimLinks userId ids now, db =>
    (db.verificationTokens.update
      (fun k => decide (k.id ∈ ids) && decide (k.userId = userId) && open? now k)
      (used now)).map fun verificationTokens => { db with verificationTokens }
  | .verifyUser userId now, db =>
    if (db.user? userId).isSome then
      some { db with users := db.users.map fun u =>
        if u.id = userId then { u with emailVerifiedAt := some now } else u }
    else none

/-- `EMAIL_VERIFICATION_REQUEST_COOLDOWN_MS`. -/
def requestCooldownMs : ℤ := 60 * 1000

section Calls

variable (G : Configuration) (db : Database)

/-- The ids of a user's unused, unexpired tokens. -/
def openLinks (userId : Uuid) (now : Timestamp) : List Uuid :=
  (db.verificationTokens.rows.filter fun k => decide (k.userId = userId) && open? now k).map (·.id)

/-- A token with its user. -/
def link? (token : String) : Option (EmailVerificationToken × User) :=
  (db.verificationTokens.find? (·.tokenHash = G.crypto.hashToken token)).bind fun k =>
    (db.user? k.userId).map (k, ·)

/-- **`resendVerificationEmail`**, after its first look-up. -/
def resendVerificationEmail (user : Option User) : Point :=
  match user with
  | none => .requested
  | some user =>
    if user.status ≠ .active ∨ user.emailVerifiedAt.isSome then .requested else .resendRecent user

/-- The new token. -/
def newLink (userId : Uuid) (x : GoogleSignIn.Reading) : EmailVerificationToken where
  id := x.id
  userId := userId
  tokenHash := G.crypto.hashToken x.text
  expiresAt := x.now + G.verificationLifetimeMs
  createdAt := x.createdAt

/-- **`verifyEmail`**, after its first look-up. -/
def verifyLookup (token : String) (now : Timestamp)
    (found : Option (EmailVerificationToken × User)) : Point :=
  match found with
  | none => .threw (.verify .invalidToken)
  | some (k, user) =>
    if user.emailVerifiedAt.isSome then .verified
    else if k.usedAt.isSome ∨ k.expiresAt ≤ now then .threw (.verify .invalidToken)
    else .verifyDomain user.email ⟨token, k.id, user.id, now⟩

/-- …and after that of the email's domain. -/
def verifyDomain (email : String) (v : Verification) : Point :=
  match getEmailDomain G.text email with
  | .error e => .threw (.verify e)
  | .ok emailDomain =>
    let organization := (db.emailDomains.find? (·.domain = emailDomain)).bind fun c =>
      db.organizations.find? (·.id = c.organizationId)
    if ¬ organization.any (·.status = .active) then .threw (.verify .invalidToken)
    else .verifying v

/-- **`getEmailVerificationStatus`**, of a token that there is. -/
def linkStatus (k : EmailVerificationToken) (user : User) (now : Timestamp) : LinkStatus :=
  if user.emailVerifiedAt.isSome then .verified
  else if k.usedAt.isSome ∨ k.expiresAt ≤ now then .expired
  else .pending

/-- The status of a link at a time. -/
def status? (token : String) (now : Timestamp) : Option LinkStatus :=
  (link? G db token).map fun (k, user) => linkStatus k user now

end Calls

/-- **The reads of each call.** -/
def Point.read (G : Configuration) (db : Database) (x : GoogleSignIn.Reading) : Point → Option Point
  | .account p => (p.read G db x).map .account
  | .resendVerificationEmail email =>
    let email := G.text.toLowerCase (G.text.trim email)
    some (EmailVerification.resendVerificationEmail (db.users.find? (·.email = email)))
  | .resendRecent user =>
    let mostRecent := ((db.verificationTokens.rows.filter (·.userId = user.id)).map
      (·.createdAt)).max?
    some <|
      if mostRecent.any fun createdAt => decide (x.now < createdAt + requestCooldownMs) then
        .requested
      else .resendTransaction user
  | .resendTransaction user =>
    some (.resending user.id (openLinks db user.id x.now) x.now (newLink G user.id x))
  | .verifyEmail token => some (.verifyLookup token x.now)
  | .verifyLookup token now => some (EmailVerification.verifyLookup token now (link? G db token))
  | .verifyDomain email v => some (EmailVerification.verifyDomain G db email v)
  | .getEmailVerificationStatus token =>
    some <| match status? G db token x.now with
      | none => .threw .unknownLink
      | some status => .answered status
  | .resending _ _ _ _ | .requested | .verifying _ | .verified | .answered _ | .threw _ | .failed =>
    none

/-- What others do: accounts are suspended or restored, organizations and memberships change. -/
inductive Outside
  | account (userId : Uuid) (status : AccountStatus)
  | directory (organizations : List Organizations.Organization)
      (memberships : List Organizations.OrganizationMembership)

def Outside.exec : Outside → Database → Database
  | .account userId status, db =>
    { db with users := db.users.map fun u => if u.id = userId then { u with status } else u }
  | .directory organizations memberships, db => { db with organizations, memberships }

/-- The calls of the authentication service; the history is of the verifications. -/
def code (G : Configuration) :
    Code Database Point Statement GoogleSignIn.Reading Outside Verification where
  entry
    | .account p => (GoogleSignIn.code G).entry p
    | .resendVerificationEmail _ | .verifyEmail _ | .getEmailVerificationStatus _ => true
    | _ => false
  read db p x := p.read G db x
  writes
    | .account p => ((GoogleSignIn.code G).writes p).map .account
    | .resending userId ids now token =>
      [.claimLinks userId ids now, .account (.createVerificationToken token)]
    | .verifying v => [.claimLink v.tokenId v.now, .verifyUser v.userId v.now]
    | _ => []
  exec := Statement.exec
  committed
    | .account p => .account ((GoogleSignIn.code G).committed p)
    | .resending _ _ _ _ => .requested
    | .verifying _ => .verified
    | p => p
  rolledBack
    | .account p => .account ((GoogleSignIn.code G).rolledBack p)
    -- another call has claimed the link
    | .verifying _ => .threw (.verify .invalidToken)
    | .requested => .requested
    | .verified => .verified
    | .answered status => .answered status
    | .threw e => .threw e
    | _ => .failed
  emits
    | .verifying v => [v]
    | _ => []
  outside x db := some (x.exec db)

/-- The machine of the service, from any database. -/
def machine (G : Configuration) :
    Machine (Sessions Database Point Verification) (Label Point GoogleSignIn.Reading Outside) :=
  (code G).machine fun _ => True

/-! ## Users -/

/-- When the email of a user was verified, if it is. -/
def verifiedAt? (db : Sessions.Database) (id : Uuid) : Option Timestamp :=
  (db.user? id).bind (·.emailVerifiedAt)

section Users

variable {d d' : Sessions.Database} {id : Uuid}

/-- **A change that verifies no one**: whoever was there is there, verified or not as before. -/
def Unverifying (d d' : Sessions.Database) : Prop :=
  ∀ id, (d.user? id).isSome → (d'.user? id).isSome ∧ verifiedAt? d' id = verifiedAt? d id

theorem unverifying_of_eq (h : d'.users = d.users) : Unverifying d d' := by
  intro id hid
  have hsame : d'.user? id = d.user? id := by rw [Database.user?, h]; rfl
  rw [verifiedAt?, hsame]
  exact ⟨hid, rfl⟩

theorem user?_of_map {f : User → User} (h : d'.users = d.users.map f) (hf : ∀ u, (f u).id = u.id) :
    d'.user? id = (d.user? id).map f := by
  have hcomp : ((fun u : User => decide (u.id = id)) ∘ f) = fun u => decide (u.id = id) :=
    funext fun u => by simp [hf]
  rw [Database.user?, h, List.find?_map, hcomp]
  rfl

theorem unverifying_of_map {f : User → User} (h : d'.users = d.users.map f)
    (hf : ∀ u, (f u).id = u.id ∧ (f u).emailVerifiedAt = u.emailVerifiedAt) : Unverifying d d' := by
  intro id hid
  rw [verifiedAt?, verifiedAt?, user?_of_map h fun u => (hf u).1, Option.isSome_map,
    Option.bind_map]
  exact ⟨hid, Option.bind_congr fun u _ => (hf u).2⟩

theorem unverifying_of_append {user : User} (h : d'.users = d.users ++ [user]) :
    Unverifying d d' := by
  intro id hid
  obtain ⟨u, hu⟩ := Option.isSome_iff_exists.mp hid
  have hsame : d'.user? id = some u := by
    rw [Database.user?, h, List.find?_append]
    exact Option.or_of_isSome hid ▸ hu
  rw [verifiedAt?, verifiedAt?, hsame, hu]
  exact ⟨rfl, rfl⟩

end Users

/-! ## What every step keeps -/

variable {G : Configuration} {db db' db'' : Database} {id : Uuid}

/-- **What the statements of the other calls do**: they verify no one, and to the links, a registration
adds one. -/
theorem account_exec {w : GoogleSignIn.Statement} {d d' : GoogleSignIn.Database}
    (h : w.exec d = some d') : Unverifying d.toDatabase d'.toDatabase
      ∧ (d'.verificationTokens = d.verificationTokens
        ∨ ∃ token, w = .createVerificationToken token ∧ (d.user? token.userId).isSome
          ∧ d.verificationTokens.insert token = some d'.verificationTokens) := by
  cases w with
  | account w =>
    obtain ⟨e, he, rfl⟩ := Option.map_eq_some_iff.mp h
    refine ⟨?_, .inl rfl⟩
    cases w with
    | create token =>
      simp only [ResetTokens.Statement.exec, Option.ite_none_right_eq_some,
        Option.map_eq_some_iff] at he
      obtain ⟨-, _, -, rfl⟩ := he
      exact unverifying_of_eq rfl
    | auth w =>
      have he : w.exec d.toDatabase = some e := he
      cases w with
      | updatePassword userId passwordHash =>
        simp only [Write.exec, Option.ite_none_right_eq_some, Option.some.injEq] at he
        obtain ⟨-, rfl⟩ := he
        refine unverifying_of_map rfl fun u => ?_
        split
        · exact ⟨rfl, rfl⟩
        · exact ⟨rfl, rfl⟩
      | claim | create | start | revoke | switch | claimReset | claimResets =>
        exact unverifying_of_eq (users_exec (fun _ _ hw => by cases hw) he)
  | createUser user =>
    have husers := (GoogleSignIn.users_createUser h).1
    simp only [GoogleSignIn.Statement.exec, Option.ite_none_right_eq_some, Option.some.injEq] at h
    obtain ⟨-, rfl⟩ := h
    exact ⟨unverifying_of_append husers, .inl rfl⟩
  | createVerificationToken token =>
    simp only [GoogleSignIn.Statement.exec, Option.ite_none_right_eq_some,
      Option.map_eq_some_iff] at h
    obtain ⟨huser, T, hT, rfl⟩ := h
    exact ⟨unverifying_of_eq rfl, .inr ⟨token, rfl, huser, hT⟩⟩
  | createIdentity identity =>
    simp only [GoogleSignIn.Statement.exec, GoogleSignIn.Database.insertIdentity,
      Option.ite_none_right_eq_some, Option.map_eq_some_iff] at h
    obtain ⟨-, _, -, rfl⟩ := h
    exact ⟨unverifying_of_eq rfl, .inl rfl⟩
  | upsertIdentity identity now =>
    simp only [GoogleSignIn.Statement.exec] at h
    split at h
    · obtain ⟨_, -, rfl⟩ := Option.map_eq_some_iff.mp h
      exact ⟨unverifying_of_eq rfl, .inl rfl⟩
    · simp only [GoogleSignIn.Database.insertIdentity, Option.ite_none_right_eq_some,
        Option.map_eq_some_iff] at h
      obtain ⟨-, _, -, rfl⟩ := h
      exact ⟨unverifying_of_eq rfl, .inl rfl⟩
  | updateIdentity | deleteIdentity =>
    simp only [GoogleSignIn.Statement.exec, Option.ite_none_right_eq_some,
      Option.map_eq_some_iff] at h
    obtain ⟨-, _, -, rfl⟩ := h
    exact ⟨unverifying_of_eq rfl, .inl rfl⟩

/-- The columns of a link that no update touches. -/
def identity (k : EmailVerificationToken) : Uuid × Uuid × String × Timestamp :=
  (k.id, k.userId, k.tokenHash, k.expiresAt)

theorem identity_eq {k k' : EmailVerificationToken} (h : identity k' = identity k) :
    k'.id = k.id ∧ k'.userId = k.userId ∧ k'.tokenHash = k.tokenHash ∧ k'.expiresAt = k.expiresAt := by
  simpa [identity] using h

/-- The same link, later: used when it was, if it was. -/
def LaterLink (k k' : EmailVerificationToken) : Prop :=
  identity k' = identity k ∧ ∀ t, k.usedAt = some t → k'.usedAt = some t

theorem LaterLink.refl (k : EmailVerificationToken) : LaterLink k k := ⟨rfl, fun _ => id⟩

theorem LaterLink.trans {k k' k'' : EmailVerificationToken} (h : LaterLink k k')
    (h' : LaterLink k' k'') : LaterLink k k'' :=
  ⟨h'.1.trans h.1, fun t ht => h'.2 t (h.2 t ht)⟩

/-- **Links stay**, and so do users and that they are verified. -/
structure Keeps (db db' : Database) : Prop where
  links : ∀ k ∈ db.verificationTokens, ∃ k' ∈ db'.verificationTokens, LaterLink k k'
  users : ∀ id, (db.user? id).isSome → (db'.user? id).isSome
  verified : ∀ id, (verifiedAt? db.toDatabase id).isSome → (verifiedAt? db'.toDatabase id).isSome

theorem Keeps.refl (db : Database) : Keeps db db :=
  ⟨fun k hk => ⟨k, hk, .refl k⟩, fun _ => id, fun _ => id⟩

theorem Keeps.trans (h : Keeps db db') (h' : Keeps db' db'') : Keeps db db'' where
  links k hk := by
    obtain ⟨k', hk', hlater⟩ := h.links k hk
    obtain ⟨k'', hk'', hlater'⟩ := h'.links k' hk'
    exact ⟨k'', hk'', hlater.trans hlater'⟩
  users id hid := h'.users id (h.users id hid)
  verified id hid := h'.verified id (h.verified id hid)

/-- Whoever is verified is there. -/
theorem user?_of_verifiedAt? {d : Sessions.Database} (h : (verifiedAt? d id).isSome) :
    (d.user? id).isSome := by
  rw [verifiedAt?] at h
  exact Option.isSome_of_isSome_bind h

theorem Keeps.of_unverifying (hlinks : ∀ k ∈ db.verificationTokens,
      ∃ k' ∈ db'.verificationTokens, LaterLink k k')
    (husers : Unverifying db.toDatabase db'.toDatabase) : Keeps db db' where
  links := hlinks
  users id hid := (husers id hid).1
  verified id hid := by rwa [(husers id (user?_of_verifiedAt? hid)).2]

/-- **What a statement does to the users**: it verifies none, or the one it is about. -/
theorem verified_exec {w : Statement} (h : w.exec db = some db') (hid : (db.user? id).isSome) :
    (db'.user? id).isSome ∧ (verifiedAt? db'.toDatabase id = verifiedAt? db.toDatabase id
      ∨ ∃ now, w = .verifyUser id now ∧ verifiedAt? db'.toDatabase id = some now) := by
  cases w with
  | account w =>
    obtain ⟨hsome, hsame⟩ := (account_exec h).1 id hid
    exact ⟨hsome, .inl hsame⟩
  | claimLink k now =>
    simp only [Statement.exec, Option.ite_none_right_eq_some, Option.map_eq_some_iff] at h
    obtain ⟨-, _, -, rfl⟩ := h
    exact ⟨hid, .inl rfl⟩
  | claimLinks userId ids now =>
    obtain ⟨_, -, rfl⟩ := Option.map_eq_some_iff.mp h
    exact ⟨hid, .inl rfl⟩
  | verifyUser userId now =>
    simp only [Statement.exec, Option.ite_none_right_eq_some, Option.some.injEq] at h
    obtain ⟨-, rfl⟩ := h
    obtain ⟨u, hu⟩ := Option.isSome_iff_exists.mp hid
    have huid : u.id = id := by simpa using List.find?_some hu
    have hlater : Database.user? { db.toDatabase with
        users := db.users.map fun u =>
          if u.id = userId then { u with emailVerifiedAt := some now } else u } id
        = some (if u.id = userId then { u with emailVerifiedAt := some now } else u) := by
      rw [user?_of_map rfl fun u => by split <;> rfl, hu]
      rfl
    refine ⟨Option.isSome_iff_exists.mpr ⟨_, hlater⟩, ?_⟩
    rw [verifiedAt?, verifiedAt?, hlater, hu]
    by_cases heq : u.id = userId
    · refine .inr ⟨now, by rw [← heq, huid], ?_⟩
      rw [if_pos heq]
      rfl
    · refine .inl ?_
      rw [if_neg heq]

theorem links_exec {w : Statement} (h : w.exec db = some db') :
    ∀ k ∈ db.verificationTokens, ∃ k' ∈ db'.verificationTokens, LaterLink k k' := by
  have hupdate {p : EmailVerificationToken → Bool} {now : Timestamp}
      {T : Table EmailVerificationToken EmailVerificationToken.Constraints}
      (hp : ∀ k, p k → k.usedAt.isNone) (hT : db.verificationTokens.update p (used now) = some T) :
      ∀ k ∈ db.verificationTokens, ∃ k' ∈ T, LaterLink k k' := by
    intro k hk
    refine ⟨_, (Table.mem_update hT).mpr ⟨k, hk, rfl⟩, ?_⟩
    split
    · next hpk =>
      refine ⟨rfl, fun t ht => ?_⟩
      have hnone := hp k hpk
      rw [ht] at hnone
      cases hnone
    · exact .refl k
  cases w with
  | account w =>
    rcases (account_exec h).2 with hsame | ⟨token, -, -, hT⟩
    · exact fun k hk => ⟨k, (congrArg (k ∈ ·) hsame).mpr hk, .refl k⟩
    · exact fun k hk => ⟨k, (Table.mem_insert hT).mpr (.inl hk), .refl k⟩
  | claimLink k now =>
    simp only [Statement.exec, Option.ite_none_right_eq_some, Option.map_eq_some_iff] at h
    obtain ⟨-, T, hT, rfl⟩ := h
    refine hupdate (fun k hk => ?_) hT
    simp only [open?, Bool.and_eq_true] at hk
    exact hk.2.1
  | claimLinks userId ids now =>
    obtain ⟨T, hT, rfl⟩ := Option.map_eq_some_iff.mp h
    refine hupdate (fun k hk => ?_) hT
    simp only [open?, Bool.and_eq_true] at hk
    exact hk.2.1
  | verifyUser userId now =>
    simp only [Statement.exec, Option.ite_none_right_eq_some, Option.some.injEq] at h
    obtain ⟨-, rfl⟩ := h
    exact fun k hk => ⟨k, hk, .refl k⟩

theorem keeps_exec {w : Statement} (h : w.exec db = some db') : Keeps db db' where
  links := links_exec h
  users id hid := (verified_exec h hid).1
  verified id hid := by
    rcases (verified_exec h (user?_of_verifiedAt? hid)).2 with hsame | ⟨now, -, hnow⟩
    · rwa [hsame]
    · rw [hnow]
      rfl

theorem keeps_replay {ws : List Statement} (h : (code G).replay ws db = some db') :
    Keeps db db' := by
  induction ws generalizing db with
  | nil =>
    obtain rfl : db = db' := Option.some.inj h
    exact .refl db
  | cons w ws ih =>
    obtain ⟨db₁, hw, hrest⟩ := Option.bind_eq_some_iff.mp h
    exact (keeps_exec hw).trans (ih hrest)

theorem unverifying_outside (x : Outside) (db : Database) :
    Unverifying db.toDatabase (x.exec db).toDatabase
      ∧ (x.exec db).verificationTokens = db.verificationTokens := by
  cases x with
  | account userId status =>
    refine ⟨unverifying_of_map rfl fun u => ?_, rfl⟩
    split
    · exact ⟨rfl, rfl⟩
    · exact ⟨rfl, rfl⟩
  | directory organizations memberships => exact ⟨unverifying_of_eq rfl, rfl⟩

theorem keeps_outside (x : Outside) (db : Database) : Keeps db (x.exec db) := by
  obtain ⟨husers, hlinks⟩ := unverifying_outside x db
  exact .of_unverifying (fun k hk => ⟨k, hlinks ▸ hk, .refl k⟩) husers

variable {s t : Sessions Database Point Verification} {l : Label Point GoogleSignIn.Reading Outside}

theorem keeps_step (h : (code G).step s l = some t) : Keeps s.db t.db := by
  cases Code.step_cases h with
  | call | read | write | rollback => exact .refl _
  | commit hc hpos hall hrep => exact keeps_replay hrep
  | outside hx =>
    obtain rfl := Option.some.inj hx
    exact keeps_outside _ _

/-- **Over a run.** -/
theorem keeps_run {ok : Sessions Database Point Verification →
    Label Point GoogleSignIn.Reading Outside → Prop} (h : (machine G).Run ok s t) :
    Keeps s.db t.db := by
  induction h with
  | refl => exact .refl _
  | tail _ _ hstep ih => exact ih.trans (keeps_step hstep)

/-! ## The status of a link -/

theorem link?_of_keeps (hkeeps : Keeps db db') {token : String} {k : EmailVerificationToken}
    {user : User} (h : link? G db token = some (k, user)) :
    ∃ k' user', link? G db' token = some (k', user') ∧ LaterLink k k'
      ∧ (user.emailVerifiedAt.isSome → user'.emailVerifiedAt.isSome) := by
  obtain ⟨k₀, hfind, hmap⟩ := Option.bind_eq_some_iff.mp h
  obtain ⟨u₀, huser, heq⟩ := Option.map_eq_some_iff.mp hmap
  obtain ⟨rfl, rfl⟩ := Prod.mk.inj heq
  obtain ⟨k', hk', hlater⟩ := hkeeps.links k₀ (Table.mem_of_find? hfind)
  obtain ⟨-, huserId, hhash, -⟩ := identity_eq hlater.1
  have hhashed : k₀.tokenHash = G.crypto.hashToken token := by
    simpa using Table.pred_of_find? hfind
  have hfind' : db'.verificationTokens.find? (·.tokenHash = G.crypto.hashToken token) = some k' := by
    rw [← hhashed, ← hhash]
    exact db'.verificationTokens.valid.2.1.find?_eq hk'
  obtain ⟨user', huser'⟩ := Option.isSome_iff_exists.mp
    (hkeeps.users k₀.userId (Option.isSome_iff_exists.mpr ⟨_, huser⟩))
  refine ⟨k', user', ?_, hlater, fun hverified => ?_⟩
  · rw [link?, hfind', Option.bind_some, huserId, huser']
    rfl
  · have hkept := hkeeps.verified k₀.userId (by rw [verifiedAt?, huser]; exact hverified)
    rw [verifiedAt?, huser'] at hkept
    exact hkept

theorem linkStatus_mono {k k' : EmailVerificationToken} {user user' : User} {now now' : Timestamp}
    (hlater : LaterLink k k')
    (hverified : user.emailVerifiedAt.isSome → user'.emailVerifiedAt.isSome) (hnow : now ≤ now') :
    (linkStatus k user now).rank ≤ (linkStatus k' user' now').rank := by
  by_cases hu : user.emailVerifiedAt.isSome
  · rw [linkStatus, linkStatus, if_pos hu, if_pos (hverified hu)]
  · rw [linkStatus, if_neg hu]
    split
    · next hdead =>
      have hdead' : k'.usedAt.isSome ∨ k'.expiresAt ≤ now' := by
        rcases hdead with hused | hle
        · obtain ⟨τ, hτ⟩ := Option.isSome_iff_exists.mp hused
          exact .inl (Option.isSome_iff_exists.mpr ⟨τ, hlater.2 τ hτ⟩)
        · obtain ⟨-, -, -, hexpires⟩ := identity_eq hlater.1
          exact .inr (hexpires ▸ le_trans hle hnow)
      rw [linkStatus]
      split
      · decide
      · exact le_refl _
    · exact Nat.zero_le _

/-- **The status of a link only goes forward**: pending, expired or used up, verified. -/
theorem link_status_monotone (hrun : (machine G).Run Machine.free s t) {token : String}
    {now now' : Timestamp} (hnow : now ≤ now') {status : LinkStatus}
    (h : status? G s.db token now = some status) :
    ∃ status', status? G t.db token now' = some status' ∧ status.rank ≤ status'.rank := by
  obtain ⟨⟨k, user⟩, hlink, rfl⟩ := Option.map_eq_some_iff.mp h
  obtain ⟨k', user', hlink', hlater, hverified⟩ := link?_of_keeps (keeps_run hrun) hlink
  exact ⟨linkStatus k' user' now', by rw [status?, hlink']; rfl, linkStatus_mono hlater hverified hnow⟩

/-! ## Who is verified -/

/-- The row that a verification has claimed. -/
structure Claimed (G : Configuration) (db : Database) (v : Verification)
    (k : EmailVerificationToken) : Prop where
  mem : k ∈ db.verificationTokens
  id_eq : k.id = v.tokenId
  user : k.userId = v.userId
  hash : k.tokenHash = G.crypto.hashToken v.token
  used : k.usedAt = some v.now
  open_ : v.now < k.expiresAt

/-- A call that is about to claim a token was given it, and found it with its user. -/
def Presented (G : Configuration) (db : Database) (v : Verification) : Prop :=
  ∃ k ∈ db.verificationTokens, k.id = v.tokenId ∧ k.userId = v.userId
    ∧ k.tokenHash = G.crypto.hashToken v.token

theorem Claimed.mono {v : Verification} {k : EmailVerificationToken} (h : Claimed G db v k)
    (hkeeps : Keeps db db') : ∃ k', Claimed G db' v k' := by
  obtain ⟨k', hk', hsame, hused⟩ := hkeeps.links k h.mem
  obtain ⟨hid, huser, hhash, hexpires⟩ := identity_eq hsame
  exact ⟨k', hk', hid.trans h.id_eq, huser.trans h.user, hhash.trans h.hash, hused _ h.used,
    hexpires ▸ h.open_⟩

theorem Presented.mono {v : Verification} (h : Presented G db v) (hkeeps : Keeps db db') :
    Presented G db' v := by
  obtain ⟨k, hk, hid, huser, hhash⟩ := h
  obtain ⟨k', hk', hsame, -⟩ := hkeeps.links k hk
  obtain ⟨hid', huser', hhash', -⟩ := identity_eq hsame
  exact ⟨k', hk', hid'.trans hid, huser'.trans huser, hhash'.trans hhash⟩

/-- What a call knows of the verification it makes. -/
def PresentedAt (G : Configuration) (db : Database) : Point → Prop
  | .verifyDomain _ v | .verifying v => Presented G db v
  | _ => True

theorem PresentedAt.mono {p : Point} (h : PresentedAt G db p) (hkeeps : Keeps db db') :
    PresentedAt G db' p := by
  cases p with
  | verifyDomain email v | verifying v => exact Presented.mono h hkeeps
  | _ => trivial

theorem presentedAt_lookup {token : String} {now : Timestamp} :
    PresentedAt G db (verifyLookup token now (link? G db token)) := by
  cases hlink : link? G db token with
  | none => trivial
  | some found =>
    obtain ⟨k, user⟩ := found
    rw [verifyLookup]
    split
    · trivial
    · split
      · trivial
      · obtain ⟨k₀, hfind, hmap⟩ := Option.bind_eq_some_iff.mp hlink
        obtain ⟨u₀, huser, heq⟩ := Option.map_eq_some_iff.mp hmap
        obtain ⟨rfl, rfl⟩ := Prod.mk.inj heq
        refine ⟨k₀, Table.mem_of_find? hfind, rfl, ?_, by simpa using Table.pred_of_find? hfind⟩
        exact (id_of_user? huser).symm

theorem presentedAt_read {p p' : Point} {x : GoogleSignIn.Reading} (hp : PresentedAt G db p)
    (h : p.read G db x = some p') : PresentedAt G db p' := by
  cases p with
  | account p =>
    obtain ⟨p', -, rfl⟩ := Option.map_eq_some_iff.mp h
    trivial
  | resendVerificationEmail email =>
    obtain rfl := Option.some.inj h
    unfold EmailVerification.resendVerificationEmail
    split
    · trivial
    · split <;> trivial
  | resendRecent user =>
    obtain rfl := Option.some.inj h
    split <;> trivial
  | resendTransaction | verifyEmail =>
    obtain rfl := Option.some.inj h
    trivial
  | verifyLookup token now =>
    obtain rfl := Option.some.inj h
    exact presentedAt_lookup
  | verifyDomain email v =>
    obtain rfl := Option.some.inj h
    rw [verifyDomain]
    split
    · trivial
    · dsimp only
      split
      · trivial
      · exact hp
  | getEmailVerificationStatus token =>
    obtain rfl := Option.some.inj h
    split <;> trivial
  | resending | requested | verifying | verified | answered | threw | failed => cases h

/-- **The commit of a verification**: its token was unused, and is used by it. -/
theorem claimed_replay {v : Verification} (hpresented : Presented G db v)
    (h : (code G).replay ((code G).writes (.verifying v)) db = some db') :
    (∃ k, Claimed G db' v k) ∧ ∀ r k, Claimed G db r k → r.tokenId ≠ v.tokenId := by
  obtain ⟨db₁, hclaim, h⟩ := Option.bind_eq_some_iff.mp h
  obtain ⟨db₂, hverify, hlast⟩ := Option.bind_eq_some_iff.mp h
  obtain rfl : db₂ = db' := Option.some.inj hlast
  have hlinks : db₂.verificationTokens = db₁.verificationTokens := by
    simp only [code, Statement.exec, Option.ite_none_right_eq_some, Option.some.injEq] at hverify
    obtain ⟨-, rfl⟩ := hverify
    rfl
  simp only [code, Statement.exec, open?, Option.ite_none_right_eq_some, Option.map_eq_some_iff,
    List.any_eq_true, Bool.and_eq_true, decide_eq_true_eq, Option.isNone_iff_eq_none] at hclaim
  obtain ⟨⟨k, hk, hid, hunused, hlt⟩, T, hT, rfl⟩ := hclaim
  constructor
  · obtain ⟨k₀, hk₀, hid₀, huser, hhash⟩ := hpresented
    obtain rfl := db.verificationTokens.valid.1.eq hk₀ hk (hid₀.trans hid.symm)
    refine ⟨used v.now k₀, ?_, hid, huser, hhash, rfl, hlt⟩
    rw [hlinks]
    refine (Table.mem_update hT).mpr ⟨k₀, hk, ?_⟩
    rw [if_pos (by simp [hid, hunused, hlt])]
  · intro r k' hclaimed heq
    obtain rfl := db.verificationTokens.valid.1.eq hclaimed.mem hk
      (hclaimed.id_eq.trans (heq.trans hid.symm))
    have hused := hclaimed.used
    rw [hunused] at hused
    cases hused

theorem emits_eq_nil {p : Point} (h : ∀ v, p ≠ .verifying v) : (code G).emits p = [] := by
  cases p with
  | verifying v => exact absurd rfl (h v)
  | _ => rfl

/-- **The verifications there were**: each has claimed a token that was presented, and none the token
of another. -/
def verifications (G : Configuration) : (code G).Outline Machine.free where
  Inv db hist := (hist.map (·.tokenId)).Nodup ∧ ∀ v ∈ hist, ∃ k, Claimed G db v k
  At db _ p := PresentedAt G db p
  entry {db hist p} _ hp := by
    cases p with
    | account | resendVerificationEmail | verifyEmail | getEmailVerificationStatus => trivial
    | _ => cases hp
  read _ hp h := presentedAt_read hp h
  rolledBack {db hist p} _ _ := by
    cases p <;> trivial
  commit {s i c db} _ hinv hat _ _ hrep := by
    have hkeeps := keeps_replay hrep
    refine ⟨?_, ?_, fun _ _ _ _ hd => hd.mono hkeeps⟩
    · by_cases hv : ∃ v, c.pc = .verifying v
      · obtain ⟨v, hpc⟩ := hv
        rw [hpc] at hrep hat
        obtain ⟨hclaimed, hnew⟩ := claimed_replay hat hrep
        have hemits : (code G).emits c.pc = [v] := by rw [hpc]; rfl
        rw [hemits, List.map_append, List.map_singleton, List.nodup_append]
        refine ⟨⟨hinv.1, List.nodup_singleton _, fun a ha b hb => ?_⟩, fun r hr => ?_⟩
        · obtain ⟨r, hr, rfl⟩ := List.mem_map.mp ha
          obtain rfl := List.mem_singleton.mp hb
          obtain ⟨k, hk⟩ := hinv.2 r hr
          exact hnew r k hk
        · rcases List.mem_append.mp hr with hr | hr
          · obtain ⟨k, hk⟩ := hinv.2 r hr
            exact hk.mono hkeeps
          · obtain rfl := List.mem_singleton.mp hr
            exact hclaimed
      · rw [emits_eq_nil fun v hpc => hv ⟨v, hpc⟩, List.append_nil]
        refine ⟨hinv.1, fun r hr => ?_⟩
        obtain ⟨k, hk⟩ := hinv.2 r hr
        exact hk.mono hkeeps
    · obtain ⟨pc, executed⟩ := c
      cases pc with
      | verifyDomain email v => exact Presented.mono hat hkeeps
      | _ => trivial
  outside {s x db} _ hinv hx := by
    obtain rfl := Option.some.inj hx
    have hkeeps := keeps_outside x s.db
    refine ⟨⟨hinv.1, fun r hr => ?_⟩, fun _ _ hp => hp.mono hkeeps⟩
    obtain ⟨k, hk⟩ := hinv.2 r hr
    exact hk.mono hkeeps

theorem Unverifying.trans {d d' d'' : Sessions.Database} (h : Unverifying d d')
    (h' : Unverifying d' d'') : Unverifying d d'' := by
  intro id hid
  obtain ⟨hid', hsame⟩ := h id hid
  obtain ⟨hid'', hsame'⟩ := h' id hid'
  exact ⟨hid'', hsame'.trans hsame⟩

/-- Only a verification verifies. -/
theorem unverifying_replay {ws : List Statement} (hws : ∀ w ∈ ws, ∀ id now, w ≠ .verifyUser id now)
    (h : (code G).replay ws db = some db') : Unverifying db.toDatabase db'.toDatabase := by
  induction ws generalizing db with
  | nil =>
    obtain rfl : db = db' := Option.some.inj h
    exact fun _ hid => ⟨hid, rfl⟩
  | cons w ws ih =>
    obtain ⟨db₁, hw, hrest⟩ := Option.bind_eq_some_iff.mp h
    refine Unverifying.trans (fun id hid => ?_)
      (ih (fun w' hw' => hws w' (List.mem_cons_of_mem w hw')) hrest)
    obtain ⟨hsome, hsame | ⟨now, heq, -⟩⟩ := verified_exec hw hid
    · exact ⟨hsome, hsame⟩
    · exact absurd heq (hws w List.mem_cons_self id now)

theorem writes_unverifying {p : Point} (h : ∀ v, p ≠ .verifying v) :
    ∀ w ∈ (code G).writes p, ∀ id now, w ≠ .verifyUser id now := by
  intro w hw id now
  cases p with
  | account p =>
    obtain ⟨w, -, rfl⟩ := List.mem_map.mp hw
    intro heq
    cases heq
  | resending userId ids now token =>
    simp only [code, List.mem_cons, List.not_mem_nil, or_false] at hw
    rcases hw with rfl | rfl <;> intro heq <;> cases heq
  | verifying v => exact absurd rfl (h v)
  | _ => cases hw

/-- **Who a step verifies**: nobody, or the user of the verification it commits. -/
theorem verified_step (h : (code G).step s l = some t) (hid : (s.db.user? id).isSome) :
    (t.db.user? id).isSome
      ∧ ((s.history <+: t.history ∧ verifiedAt? t.db.toDatabase id = verifiedAt? s.db.toDatabase id)
        ∨ ∃ v, t.history = s.history ++ [v] ∧ v.userId = id
          ∧ verifiedAt? t.db.toDatabase id = some v.now) := by
  cases Code.step_cases h with
  | call | read | write | rollback => exact ⟨hid, .inl ⟨List.prefix_refl _, rfl⟩⟩
  | outside hx =>
    obtain rfl := Option.some.inj hx
    obtain ⟨hsome, hsame⟩ := (unverifying_outside _ _).1 id hid
    exact ⟨hsome, .inl ⟨List.prefix_refl _, hsame⟩⟩
  | @commit i c db hc hpos hall hrep =>
    by_cases hv : ∃ v, c.pc = .verifying v
    · obtain ⟨v, hpc⟩ := hv
      have hhistory : s.history ++ (code G).emits c.pc = s.history ++ [v] := by rw [hpc]; rfl
      rw [hpc] at hrep
      obtain ⟨db₁, hclaim, hrep⟩ := Option.bind_eq_some_iff.mp hrep
      obtain ⟨db₂, hverify, hlast⟩ := Option.bind_eq_some_iff.mp hrep
      obtain rfl : db₂ = db := Option.some.inj hlast
      have hclaim : (Statement.claimLink v.tokenId v.now).exec s.db = some db₁ := hclaim
      have hverify : (Statement.verifyUser v.userId v.now).exec db₁ = some db₂ := hverify
      obtain ⟨hid₁, hsame | ⟨now, heq, -⟩⟩ := verified_exec hclaim hid
      · obtain ⟨hid₂, hsame₂ | ⟨now, heq, hnow⟩⟩ := verified_exec hverify hid₁
        · exact ⟨hid₂, .inl ⟨List.prefix_append _ _, hsame₂.trans hsame⟩⟩
        · cases heq
          exact ⟨hid₂, .inr ⟨v, hhistory, rfl, hnow⟩⟩
      · cases heq
    · obtain ⟨hsome, hsame⟩ :=
        unverifying_replay (writes_unverifying fun v hpc => hv ⟨v, hpc⟩) hrep id hid
      exact ⟨hsome, .inl ⟨List.prefix_append _ _, hsame⟩⟩

theorem verified_run (h : (machine G).Run Machine.free s t) (hid : (s.db.user? id).isSome) :
    (t.db.user? id).isSome ∧ s.history <+: t.history
      ∧ (verifiedAt? t.db.toDatabase id = verifiedAt? s.db.toDatabase id
        ∨ ∃ v ∈ t.history.drop s.history.length, v.userId = id
          ∧ verifiedAt? t.db.toDatabase id = some v.now) := by
  induction h with
  | refl => exact ⟨hid, List.prefix_refl _, .inl rfl⟩
  | tail _ _ hstep ih =>
    obtain ⟨hid', ⟨before, hbefore⟩, ih⟩ := ih
    obtain ⟨hid'', ⟨hgrown, hsame⟩ | ⟨v, happend, huser, hnow⟩⟩ := verified_step hstep hid'
    · refine ⟨hid'', List.IsPrefix.trans ⟨before, hbefore⟩ hgrown, ?_⟩
      obtain ⟨more, hmore⟩ := hgrown
      rw [hsame]
      refine ih.imp_right fun ⟨v, hv, hrest⟩ => ⟨v, ?_, hrest⟩
      rw [← hmore, ← hbefore, List.append_assoc, List.drop_left]
      rw [← hbefore, List.drop_left] at hv
      exact List.mem_append_left _ hv
    · refine ⟨hid'', ⟨before ++ [v], by rw [happend, ← hbefore, List.append_assoc]⟩,
        .inr ⟨v, ?_, huser, hnow⟩⟩
      rw [happend, ← hbefore, List.append_assoc, List.drop_left]
      simp

/-- **An account is verified by a link that was made for it.**  If the email of a user is verified in
the course of a run, then a verification of it was committed in that run: someone presented the
token of a row that was made for the user, at a time before it expired, and the row is used since.
No row is claimed by two verifications. -/
theorem verified_by_link (hs : (machine G).Reachable Machine.free s)
    (hrun : (machine G).Run Machine.free s t) {user user' : User}
    (huser : s.db.user? id = some user) (hbefore : user.emailVerifiedAt = none)
    (huser' : t.db.user? id = some user') {time : Timestamp}
    (hafter : user'.emailVerifiedAt = some time) :
    (t.history.map (·.tokenId)).Nodup
      ∧ ∃ v ∈ t.history.drop s.history.length, v.userId = id ∧ v.now = time
        ∧ ∃ k ∈ t.db.verificationTokens, k.id = v.tokenId ∧ k.userId = id
          ∧ k.tokenHash = G.crypto.hashToken v.token ∧ k.usedAt = some time
          ∧ time < k.expiresAt := by
  have hholds := Code.Outline.holds_of_reachable (O := verifications G)
    (fun _ _ => ⟨List.nodup_nil, by simp⟩) (hs.run hrun)
  obtain ⟨hnodup, hclaimed⟩ := hholds.inv
  refine ⟨hnodup, ?_⟩
  obtain ⟨-, -, hsame | ⟨v, hv, hvuser, hnow⟩⟩ := verified_run hrun
    (Option.isSome_iff_exists.mpr ⟨user, huser⟩)
  · rw [verifiedAt?, verifiedAt?, huser, huser', Option.bind_some, Option.bind_some, hbefore,
      hafter] at hsame
    cases hsame
  · rw [verifiedAt?, huser', Option.bind_some, hafter] at hnow
    obtain rfl := Option.some.inj hnow
    obtain ⟨k, hk⟩ := hclaimed v (List.mem_of_mem_drop hv)
    exact ⟨v, hv, hvuser, rfl, k, hk.mem, hk.id_eq, hk.user.trans hvuser, hk.hash, hk.used,
      hk.open_⟩

/-! ## Requests that overlap -/

/-- **A link could be used at a time**: it had been made by then, and is neither used nor expired. -/
structure Live (G : Configuration) (time : Timestamp) (k : EmailVerificationToken) : Prop where
  made : k.expiresAt - G.verificationLifetimeMs ≤ time
  unexpired : time < k.expiresAt
  unused : k.usedAt = none

/-- Unused links are of users there are; of two that are of one user, one had expired when the other
was made. -/
structure Superseded (G : Configuration) (db : Database) : Prop where
  user : ∀ k ∈ db.verificationTokens, k.usedAt = none → (db.user? k.userId).isSome
  apart : ∀ k ∈ db.verificationTokens, ∀ k' ∈ db.verificationTokens, k.usedAt = none →
    k'.usedAt = none → k.userId = k'.userId → k = k'
      ∨ k.expiresAt ≤ k'.expiresAt - G.verificationLifetimeMs
      ∨ k'.expiresAt ≤ k.expiresAt - G.verificationLifetimeMs

theorem Superseded.unique (h : Superseded G db) {time : Timestamp} {k k' : EmailVerificationToken}
    (hk : k ∈ db.verificationTokens) (hk' : k' ∈ db.verificationTokens)
    (huser : k.userId = k'.userId) (hlive : Live G time k) (hlive' : Live G time k') : k = k' := by
  rcases h.apart k hk k' hk' hlive.unused hlive'.unused huser with heq | hle | hle
  · exact heq
  · exact absurd (le_trans hle hlive'.made) (not_le.mpr hlive.unexpired)
  · exact absurd (le_trans hle hlive.made) (not_le.mpr hlive'.unexpired)

/-- A call is in the transaction that makes a new link for a user. -/
def Resends (s : Sessions Database Point Verification) (i : ℕ) (userId : Uuid) : Prop :=
  ∃ ids now token n, s.calls[i]? = some ⟨.resending userId ids now token, n⟩

/-- **No two requests of one user overlap.** -/
def Alone (s : Sessions Database Point Verification)
    (_ : Label Point GoogleSignIn.Reading Outside) : Prop :=
  ∀ i j userId, Resends s i userId → Resends s j userId → i = j

/-- A link that is unused was there, or is the one that the statement makes. -/
theorem unused_exec {w : Statement} (h : w.exec db = some db') {k : EmailVerificationToken}
    (hk : k ∈ db'.verificationTokens) (hunused : k.usedAt = none) :
    k ∈ db.verificationTokens
      ∨ w = .account (.createVerificationToken k) ∧ (db.user? k.userId).isSome := by
  have hupdate {p : EmailVerificationToken → Bool} {now : Timestamp}
      {T : Table EmailVerificationToken EmailVerificationToken.Constraints}
      (hT : db.verificationTokens.update p (used now) = some T) (hk : k ∈ T) :
      k ∈ db.verificationTokens := by
    obtain ⟨k₀, hk₀, rfl⟩ := (Table.mem_update hT).mp hk
    split at hunused
    · cases hunused
    · next hp => rwa [if_neg hp]
  cases w with
  | account w =>
    rcases (account_exec h).2 with hsame | ⟨token, rfl, huser, hT⟩
    · exact .inl (hsame ▸ hk)
    · rcases (Table.mem_insert hT).mp hk with hk | rfl
      · exact .inl hk
      · exact .inr ⟨rfl, huser⟩
  | claimLink id now =>
    simp only [Statement.exec, Option.ite_none_right_eq_some, Option.map_eq_some_iff] at h
    obtain ⟨-, T, hT, rfl⟩ := h
    exact .inl (hupdate hT hk)
  | claimLinks userId ids now =>
    obtain ⟨T, hT, rfl⟩ := Option.map_eq_some_iff.mp h
    exact .inl (hupdate hT hk)
  | verifyUser userId now =>
    simp only [Statement.exec, Option.ite_none_right_eq_some, Option.some.injEq] at h
    obtain ⟨-, rfl⟩ := h
    exact .inl hk

theorem unused_replay {ws : List Statement} (h : (code G).replay ws db = some db')
    {k : EmailVerificationToken} (hk : k ∈ db'.verificationTokens) (hunused : k.usedAt = none) :
    k ∈ db.verificationTokens
      ∨ .account (.createVerificationToken k) ∈ ws ∧ (db'.user? k.userId).isSome := by
  induction ws generalizing db with
  | nil =>
    obtain rfl : db = db' := Option.some.inj h
    exact .inl hk
  | cons w ws ih =>
    obtain ⟨db₁, hw, hrest⟩ := Option.bind_eq_some_iff.mp h
    rcases ih hrest with hk | ⟨hmem, huser⟩
    · rcases unused_exec hw hk hunused with hk | ⟨rfl, huser⟩
      · exact .inl hk
      · have hkeeps : Keeps db db' := keeps_replay h
        exact .inr ⟨List.mem_cons_self, hkeeps.users _ huser⟩
    · exact .inr ⟨List.mem_cons_of_mem w hmem, huser⟩

/-- Who makes links: a registration, and a request. -/
theorem makes_cases {p : Point} {token : EmailVerificationToken}
    (h : .account (.createVerificationToken token) ∈ (code G).writes p) :
    (∃ user, p = .account (.registering user token))
      ∨ ∃ userId ids now, p = .resending userId ids now token := by
  cases p with
  | account p =>
    obtain ⟨w, hw, heq⟩ := List.mem_map.mp h
    obtain rfl := Statement.account.inj heq
    cases p with
    | registering user token' =>
      simp only [GoogleSignIn.code, List.mem_cons, List.not_mem_nil, or_false] at hw
      rcases hw with hw | hw
      · cases hw
      · cases hw
        exact .inl ⟨user, rfl⟩
    | account p =>
      obtain ⟨_, -, heq⟩ := List.mem_map.mp hw
      cases heq
    | session =>
      obtain ⟨_, -, heq⟩ := List.mem_map.mp hw
      cases heq
    | connecting | signingIn | signingUp | disconnecting =>
      simp [GoogleSignIn.code] at hw
    | _ => cases hw
  | resending userId ids now token' =>
    simp only [code, List.mem_cons, List.not_mem_nil, or_false] at h
    rcases h with h | h
    · cases h
    · cases h
      exact .inr ⟨userId, ids, now, rfl⟩
  | verifying v => simp [code] at h
  | _ => cases h

/-- A registration makes a link for the user it creates. -/
def RegistersOwn : GoogleSignIn.Point → Prop
  | .registering user token => token.userId = user.id
  | _ => True

theorem registersOwn_afterLookup {flow : GoogleSignIn.GoogleOAuthFlow}
    {identity : GoogleSignIn.GoogleIdentity} {now : Timestamp}
    {existing : Option GoogleSignIn.ExternalIdentity} :
    RegistersOwn (GoogleSignIn.afterLookup db flow identity now existing) := by
  unfold GoogleSignIn.afterLookup
  split
  · split
    · trivial
    · split <;> trivial
  · split
    · trivial
    · split <;> trivial

theorem registersOwn_read {p p' : GoogleSignIn.Point} {x : GoogleSignIn.Reading}
    (h : p.read G db x = some p') : RegistersOwn p' := by
  cases p with
  | account p =>
    obtain ⟨_, -, rfl⟩ := Option.map_eq_some_iff.mp h
    trivial
  | register email =>
    obtain rfl := Option.some.inj h
    unfold GoogleSignIn.register
    split
    · trivial
    · dsimp only
      split <;> trivial
  | registerTransaction email passwordHash =>
    obtain rfl := Option.some.inj h
    rfl
  | completeGoogleCallback flow state identity =>
    obtain rfl := Option.some.inj h
    unfold GoogleSignIn.completeGoogleCallback
    split
    · trivial
    · split
      · trivial
      · split
        · trivial
        · exact registersOwn_afterLookup
  | connectUser userId identity =>
    obtain rfl := Option.some.inj h
    unfold GoogleSignIn.connectUser
    split
    · trivial
    · split <;> trivial
  | connectOther userId identity =>
    obtain rfl := Option.some.inj h
    unfold GoogleSignIn.connectOther
    split <;> trivial
  | racedIdentity identity =>
    obtain rfl := Option.some.inj h
    unfold GoogleSignIn.racedIdentity
    split
    · trivial
    · split <;> trivial
  | session identity row next p =>
    rcases GoogleSignIn.read_session h with ⟨_, _, _, -, rfl⟩ | ⟨_, -, rfl⟩
    · trivial
    · trivial
  | requestPasswordSetup userId =>
    obtain rfl := Option.some.inj h
    unfold GoogleSignIn.requestPasswordSetup
    split
    · trivial
    · split <;> trivial
  | hashPassword | emailOwner | disconnectGoogle | findConnected =>
    obtain rfl := Option.some.inj h
    split <;> trivial
  | registering | registered | connecting | connected | signingIn | signingUp | signedIn
  | disconnecting | disconnected | threw | failed => cases h

/-- What a call knows of the link it is about to make. -/
def MakesAt (G : Configuration) (db : Database) : Point → Prop
  | .account p => RegistersOwn p
  | .resendRecent user | .resendTransaction user => (db.user? user.id).isSome
  | .resending userId ids now token => (db.user? userId).isSome ∧ token.userId = userId
      ∧ token.expiresAt = now + G.verificationLifetimeMs ∧ openLinks db userId now ⊆ ids
  | _ => True

theorem mem_openLinks {userId : Uuid} {now : Timestamp} {id : Uuid} :
    id ∈ openLinks db userId now ↔ ∃ k ∈ db.verificationTokens,
      k.userId = userId ∧ k.usedAt = none ∧ now < k.expiresAt ∧ k.id = id := by
  simp only [openLinks, open?, List.mem_map, List.mem_filter, Bool.and_eq_true, decide_eq_true_eq,
    Option.isNone_iff_eq_none, and_assoc]
  rfl

/-- No link is made for the user of a request meanwhile. -/
theorem MakesAt.mono {p : Point} (h : MakesAt G db p) (hkeeps : Keeps db db')
    (hold : ∀ userId ids now token, p = .resending userId ids now token →
      ∀ k ∈ db'.verificationTokens, k.usedAt = none → k.userId = userId →
        k ∈ db.verificationTokens) : MakesAt G db' p := by
  cases p with
  | account p => exact h
  | resendRecent user | resendTransaction user => exact hkeeps.users _ h
  | resending userId ids now token =>
    obtain ⟨hthere, huser, hexpires, hids⟩ := h
    refine ⟨hkeeps.users _ hthere, huser, hexpires, fun id hid => ?_⟩
    obtain ⟨k, hk, hkuser, hunused, hopen, rfl⟩ := mem_openLinks.mp hid
    have hk' := hold userId ids now token rfl k hk hunused hkuser
    exact hids (mem_openLinks.mpr ⟨k, hk', hkuser, hunused, hopen, rfl⟩)
  | _ => trivial

theorem makesAt_read {p p' : Point} {x : GoogleSignIn.Reading} (hp : MakesAt G db p)
    (h : p.read G db x = some p') : MakesAt G db p' := by
  cases p with
  | account p =>
    obtain ⟨p', hread, rfl⟩ := Option.map_eq_some_iff.mp h
    exact registersOwn_read hread
  | resendVerificationEmail email =>
    obtain rfl := Option.some.inj h
    unfold EmailVerification.resendVerificationEmail
    split
    · trivial
    · next user hfound =>
      split
      · trivial
      · change (db.user? user.id).isSome
        rw [Sessions.Database.user?, List.find?_isSome]
        exact ⟨user, List.mem_of_find?_eq_some hfound, by simp⟩
  | resendRecent user =>
    obtain rfl := Option.some.inj h
    split
    · trivial
    · exact hp
  | resendTransaction user =>
    obtain rfl := Option.some.inj h
    exact ⟨hp, rfl, rfl, List.Subset.refl _⟩
  | verifyEmail =>
    obtain rfl := Option.some.inj h
    trivial
  | verifyLookup token now =>
    obtain rfl := Option.some.inj h
    unfold EmailVerification.verifyLookup
    split
    · trivial
    · split
      · trivial
      · split <;> trivial
  | verifyDomain email v =>
    obtain rfl := Option.some.inj h
    unfold EmailVerification.verifyDomain
    split
    · trivial
    · dsimp only
      split <;> trivial
  | getEmailVerificationStatus token =>
    obtain rfl := Option.some.inj h
    split <;> trivial
  | resending | requested | verifying | verified | answered | threw | failed => cases h

/-- Whoever registers was not there. -/
theorem absent_of_registering {user : User} {token : EmailVerificationToken}
    (h : (code G).replay ((code G).writes (.account (.registering user token))) db = some db') :
    db.user? user.id = none := by
  obtain ⟨db₁, hcreate, -⟩ := Option.bind_eq_some_iff.mp h
  have hcreate : (GoogleSignIn.Statement.createUser user).exec db = some db₁ := hcreate
  simp only [GoogleSignIn.Statement.exec, Option.ite_none_right_eq_some, List.all_eq_true,
    Bool.and_eq_true, decide_eq_true_eq] at hcreate
  rw [Sessions.Database.user?, List.find?_eq_none]
  exact fun u hu => by simpa using (hcreate.1 u hu).1

/-- A request uses the open links of its user. -/
theorem expired_of_resending {userId : Uuid} {ids : List Uuid} {now : Timestamp}
    {token : EmailVerificationToken} (hids : openLinks db userId now ⊆ ids)
    (h : (code G).replay ((code G).writes (.resending userId ids now token)) db = some db')
    {k : EmailVerificationToken} (hk : k ∈ db.verificationTokens)
    (hk' : k ∈ db'.verificationTokens) (huser : k.userId = userId) (hunused : k.usedAt = none) :
    k.expiresAt ≤ now := by
  obtain ⟨db₁, hclaim, hrest⟩ := Option.bind_eq_some_iff.mp h
  obtain ⟨T, hT, rfl⟩ := Option.map_eq_some_iff.mp hclaim
  by_contra hopen
  have hopen : now < k.expiresAt := not_le.mp hopen
  have hin : k.id ∈ ids := hids (mem_openLinks.mpr ⟨k, hk, huser, hunused, hopen, rfl⟩)
  have hused : used now k ∈ T := by
    refine (Table.mem_update hT).mpr ⟨k, hk, ?_⟩
    rw [if_pos (by simp [open?, hin, huser, hunused, hopen])]
  have hkeeps : Keeps _ db' := keeps_replay hrest
  obtain ⟨k', hmem, hsame, husedAt⟩ := hkeeps.links _ hused
  obtain rfl := db'.verificationTokens.valid.1.eq hmem hk' (identity_eq hsame).1
  rw [husedAt now rfl] at hunused
  cases hunused

/-- A link that a commit makes, and the unused links of its user that were there. -/
theorem made_apart {p : Point} (hinv : Superseded G db) (hat : MakesAt G db p)
    (h : (code G).replay ((code G).writes p) db = some db') {token k : EmailVerificationToken}
    (hmakes : .account (.createVerificationToken token) ∈ (code G).writes p)
    (hk : k ∈ db.verificationTokens) (hk' : k ∈ db'.verificationTokens) (hunused : k.usedAt = none)
    (huser : k.userId = token.userId) : k.expiresAt ≤ token.expiresAt - G.verificationLifetimeMs := by
  rcases makes_cases hmakes with ⟨user, rfl⟩ | ⟨userId, ids, now, rfl⟩
  · have hthere := hinv.user k hk hunused
    rw [huser, show token.userId = user.id from hat, absent_of_registering h] at hthere
    cases hthere
  · obtain ⟨-, htoken, hexpires, hids⟩ := hat
    have hle := expired_of_resending hids h hk hk' (huser.trans htoken) hunused
    rw [hexpires]
    exact le_trans hle (le_of_eq (add_sub_cancel_right now _).symm)

theorem Superseded.commit {p : Point} (hinv : Superseded G db) (hat : MakesAt G db p)
    (h : (code G).replay ((code G).writes p) db = some db') : Superseded G db' where
  user k hk hunused := by
    rcases unused_replay h hk hunused with hk | ⟨-, huser⟩
    · have hkeeps : Keeps db db' := keeps_replay h
      exact hkeeps.users _ (hinv.user k hk hunused)
    · exact huser
  apart k hk k' hk' hunused hunused' huser := by
    rcases unused_replay h hk hunused with hold | ⟨hmade, -⟩
    · rcases unused_replay h hk' hunused' with hold' | ⟨hmade', -⟩
      · exact hinv.apart k hold k' hold' hunused hunused' huser
      · exact .inr (.inl (made_apart hinv hat h hmade' hold hk hunused huser))
    · rcases unused_replay h hk' hunused' with hold' | ⟨hmade', -⟩
      · exact .inr (.inr (made_apart hinv hat h hmade hold' hk' hunused' huser.symm))
      · rcases makes_cases hmade with ⟨user, rfl⟩ | ⟨userId, ids, now, rfl⟩
        · rcases makes_cases hmade' with ⟨user', heq⟩ | ⟨_, _, _, heq⟩
          · cases heq
            exact .inl rfl
          · cases heq
        · rcases makes_cases hmade' with ⟨user', heq⟩ | ⟨_, _, _, heq⟩
          · cases heq
          · cases heq
            exact .inl rfl

/-- **The links there are**: what the requests of a run without overlaps keep. -/
def links (G : Configuration) : (code G).Outline Alone where
  Inv db _ := Superseded G db
  At db _ p := MakesAt G db p
  entry {db hist p} _ hp := by
    cases p with
    | account p =>
      cases p with
      | registering => cases hp
      | _ => trivial
    | resendVerificationEmail | verifyEmail | getEmailVerificationStatus => trivial
    | _ => cases hp
  read _ hp h := makesAt_read hp h
  rolledBack {db hist p} _ _ := by
    cases p with
    | account p => cases p <;> trivial
    | _ => trivial
  commit {s i c db} halone hinv hat hc _ hrep := by
    have hkeeps : Keeps s.db db := keeps_replay hrep
    refine ⟨hinv.commit hat hrep, ?_, fun j d hj hd hdat => hdat.mono hkeeps ?_⟩
    · obtain ⟨pc, executed⟩ := c
      cases pc with
      | account p => cases p <;> trivial
      | resendRecent user | resendTransaction user => exact hkeeps.users _ hat
      | _ => trivial
    · intro userId ids now token hpc k hk hunused huser
      rcases unused_replay hrep hk hunused with hold | ⟨hmakes, -⟩
      · exact hold
      · obtain ⟨pc, executed⟩ := c
        obtain ⟨pc', executed'⟩ := d
        obtain rfl : pc' = _ := hpc
        rcases makes_cases hmakes with ⟨user, rfl⟩ | ⟨userId', ids', now', rfl⟩
        · -- the user who registers is new, and the one of the request was there
          have hthere := hdat.1
          rw [← huser, show k.userId = user.id from hat, absent_of_registering hrep] at hthere
          cases hthere
        · obtain rfl : userId' = userId := hat.2.1.symm.trans huser
          exact absurd (halone j i userId' ⟨_, _, _, _, hd⟩ ⟨_, _, _, _, hc⟩) hj
  outside {s x db} _ hinv hx := by
    obtain rfl := Option.some.inj hx
    obtain ⟨-, hlinks⟩ := unverifying_outside x s.db
    have hkeeps := keeps_outside x s.db
    refine ⟨⟨fun k hk hunused => ?_, fun k hk k' hk' => ?_⟩, fun _ _ hp => hp.mono hkeeps ?_⟩
    · rw [hlinks] at hk
      exact hkeeps.users _ (hinv.user k hk hunused)
    · rw [hlinks] at hk hk'
      exact hinv.apart k hk k' hk'
    · intro userId ids now token _ k hk _ _
      rwa [hlinks] at hk

/-- **A user has one live link at most**, at any time, where no two of his requests overlap. -/
theorem one_live_link (hs : ((code G).machine (Superseded G)).Reachable Alone s) {time : Timestamp}
    {k k' : EmailVerificationToken} (hk : k ∈ s.db.verificationTokens)
    (hk' : k' ∈ s.db.verificationTokens) (huser : k.userId = k'.userId) (hlive : Live G time k)
    (hlive' : Live G time k') : k = k' := by
  have hholds := Code.Outline.holds_of_reachable (O := links G) (fun _ h => h) hs
  exact hholds.inv.unique hk hk' huser hlive hlive'

/-! ## A link, two links -/

theorem oneLinkConstraints : EmailVerificationToken.Constraints
    [{ id := 1, userId := 7, tokenHash := "t", expiresAt := 90000, createdAt := 0 }] := by
  decide

theorem oneDomain : Organizations.OrganizationEmailDomain.Constraints
    [{ id := 4, organizationId := 3, domain := "fu" }] := by
  decide

/-- A user who has registered, and has not presented the token of his link. -/
def oneLink : Sessions Database Point Verification where
  db :=
    { users := [{ id := 7, email := "ana@fu" }]
      organizations := [{ id := 3, parentId := none, rootOrganizationId := 3 }]
      memberships := []
      refreshTokens := ⟨[], GoogleSignIn.refreshTokens_nil⟩
      passwordResetTokens := ⟨[], GoogleSignIn.passwordResetTokens_nil⟩
      emailDomains := ⟨_, oneDomain⟩
      verificationTokens := ⟨_, oneLinkConstraints⟩
      externalIdentities := ⟨[], GoogleSignIn.externalIdentities_nil⟩ }
  history := []
  calls := []

/-- The user presents the token. -/
def presented : List (Label Point GoogleSignIn.Reading Outside) :=
  [.call (.verifyEmail "t"), .read 0 { now := 5 }, .read 0 {}, .read 0 {}, .write 0, .write 0,
    .commit 0]

theorem init_oneLink : (machine sampleConfiguration).init oneLink := ⟨trivial, rfl, rfl⟩

/-- The account is verified, by the token. -/
def isVerified (s : Sessions Database Point Verification) : Bool :=
  decide (s.db.user? 7 = some { id := 7, email := "ana@fu", emailVerifiedAt := some 5 })
    && decide (status? sampleConfiguration s.db "t" 5 = some .verified)

theorem link_status_monotone_when_presented : ∃ t,
    (machine sampleConfiguration).Run Machine.free oneLink t
      ∧ status? sampleConfiguration oneLink.db "t" 4 = some .pending
      ∧ status? sampleConfiguration t.db "t" 5 = some .verified
      ∧ ∃ status', status? sampleConfiguration t.db "t" 6 = some status'
        ∧ LinkStatus.pending.rank ≤ status'.rank := by
  obtain ⟨t, hrun, ht⟩ := (machine sampleConfiguration).exists_run (p := isVerified) (s := oneLink)
    presented (by decide)
  simp only [isVerified, Bool.and_eq_true, decide_eq_true_eq] at ht
  have hpending : status? sampleConfiguration oneLink.db "t" 4 = some .pending := by decide
  exact ⟨t, hrun, hpending, ht.2, link_status_monotone hrun (by decide) hpending⟩

theorem verified_by_link_when_presented : ∃ t,
    (machine sampleConfiguration).Run Machine.free oneLink t
      ∧ ∃ v ∈ t.history.drop oneLink.history.length, v.userId = 7 ∧ v.now = 5
        ∧ ∃ k ∈ t.db.verificationTokens, k.id = v.tokenId ∧ k.userId = 7
          ∧ k.tokenHash = sampleConfiguration.crypto.hashToken v.token ∧ k.usedAt = some 5
          ∧ 5 < k.expiresAt := by
  obtain ⟨t, hrun, ht⟩ := (machine sampleConfiguration).exists_run (p := isVerified) (s := oneLink)
    presented (by decide)
  simp only [isVerified, Bool.and_eq_true, decide_eq_true_eq] at ht
  have hbefore : oneLink.db.user? 7 = some { id := 7, email := "ana@fu" } := by decide
  exact ⟨t, hrun, (verified_by_link ⟨oneLink, init_oneLink, .refl⟩ hrun hbefore rfl ht.1 rfl).2⟩

/-- A request for a new link, by call `i`: its look-ups, and its transaction up to its commit. -/
def request : Label Point GoogleSignIn.Reading Outside := .call (.resendVerificationEmail "ana@fu")

def reads (i : ℕ) (id : Uuid) (text : String) : List (Label Point GoogleSignIn.Reading Outside) :=
  [.read i {}, .read i { now := 60000 },
    .read i { id, text, now := 60000, createdAt := 60000 }]

def commits (i : ℕ) : List (Label Point GoogleSignIn.Reading Outside) :=
  [.write i, .write i, .commit i]

theorem superseded_oneLink : Superseded sampleConfiguration oneLink.db := by
  refine ⟨fun k hk _ => ?_, fun k hk k' hk' _ _ _ => .inl ?_⟩
  · obtain rfl := List.mem_singleton.mp hk
    decide
  · rw [List.mem_singleton.mp hk, List.mem_singleton.mp hk']

/-- With one call there is no overlap. -/
theorem alone_of_single {s : Sessions Database Point Verification} (h : s.calls.length ≤ 1)
    (l : Label Point GoogleSignIn.Reading Outside) : Alone s l := by
  intro i j userId ⟨_, _, _, _, hi⟩ ⟨_, _, _, _, hj⟩
  obtain ⟨hi, -⟩ := List.getElem?_eq_some_iff.mp hi
  obtain ⟨hj, -⟩ := List.getElem?_eq_some_iff.mp hj
  omega

/-- Two links of user 7, as requests at 60000 leave them. -/
def newLinks (ids : List Uuid) (s : Sessions Database Point Verification) : Bool :=
  decide ((s.db.verificationTokens.rows.filter fun k => decide (k.usedAt = none)).map
    (fun k => (k.id, k.userId, k.expiresAt)) = ids.map fun id => (id, 7, 60100))

theorem mem_of_newLinks {ids : List Uuid} (h : newLinks ids s) {id : Uuid} (hid : id ∈ ids) :
    ∃ k ∈ s.db.verificationTokens, k.id = id ∧ k.userId = 7 ∧ Live sampleConfiguration 60050 k := by
  have hlinks := of_decide_eq_true h
  have hmem : (id, 7, 60100) ∈ ids.map fun id => ((id, 7, 60100) : Uuid × Uuid × Timestamp) :=
    List.mem_map_of_mem hid
  rw [← hlinks] at hmem
  obtain ⟨k, hk, heq⟩ := List.mem_map.mp hmem
  obtain ⟨hk, hunused⟩ := List.mem_filter.mp hk
  simp only [Prod.mk.injEq] at heq
  obtain ⟨hid, huser, hexpires⟩ := heq
  exact ⟨k, hk, hid, huser, by rw [hexpires]; decide, by rw [hexpires]; decide,
    of_decide_eq_true hunused⟩

theorem one_live_link_after_request : ∃ s,
    ((code sampleConfiguration).machine (Superseded sampleConfiguration)).Reachable Alone s
      ∧ ∃ k ∈ s.db.verificationTokens, k.id = 2 ∧ Live sampleConfiguration 60050 k
        ∧ ∀ k' ∈ s.db.verificationTokens, k'.userId = 7 → Live sampleConfiguration 60050 k' →
          k = k' := by
  obtain ⟨s, hs, hp⟩ := ((code sampleConfiguration).machine
    (Superseded sampleConfiguration)).exists_reachable_guarded
    (p := fun s _ => decide (s.calls.length ≤ 1)) (q := newLinks [2]) (s := oneLink)
    (request :: reads 0 2 "u" ++ commits 0) ⟨superseded_oneLink, rfl, rfl⟩ (by decide)
  simp only [decide_eq_true_eq] at hs
  have hs := hs.mono fun _ l hlength => alone_of_single hlength l
  obtain ⟨k, hk, hid, huser, hlive⟩ := mem_of_newLinks hp (List.mem_singleton_self 2)
  exact ⟨s, hs, k, hk, hid, hlive, fun k' hk' huser' hlive' =>
    one_live_link hs hk hk' (huser.trans huser'.symm) hlive hlive'⟩

/-- **Two requests that overlap leave two links**: neither's transaction sees the link of the other. -/
theorem two_live_links : ∃ s,
    ((code sampleConfiguration).machine (Superseded sampleConfiguration)).Reachable Machine.free s
      ∧ ∃ k ∈ s.db.verificationTokens, ∃ k' ∈ s.db.verificationTokens, k.userId = k'.userId
        ∧ Live sampleConfiguration 60050 k ∧ Live sampleConfiguration 60050 k' ∧ k ≠ k' := by
  obtain ⟨s, hs, hp⟩ := ((code sampleConfiguration).machine
    (Superseded sampleConfiguration)).exists_reachable (p := newLinks [2, 3]) (s := oneLink)
    (request :: request :: reads 0 2 "u" ++ reads 1 3 "v" ++ commits 0 ++ commits 1)
    ⟨superseded_oneLink, rfl, rfl⟩ (by decide)
  obtain ⟨k, hk, hid, huser, hlive⟩ := mem_of_newLinks hp (show (2 : Uuid) ∈ [2, 3] by decide)
  obtain ⟨k', hk', hid', huser', hlive'⟩ := mem_of_newLinks hp (show (3 : Uuid) ∈ [2, 3] by decide)
  refine ⟨s, hs, k, hk, k', hk', huser.trans huser'.symm, hlive, hlive', fun heq => ?_⟩
  have hsame : (2 : Uuid) = 3 := by rw [← hid, ← hid', heq]
  cases hsame

end ResourceHive.Sessions.EmailVerification
