import ResourceHive.Sessions.Revocation

/-!
# Sessions/PasswordReset — what a password reset does to the sessions of the old password

`login` reads the hash, compares it for as long as that takes and inserts the first token in a later
step; `resetPassword` revokes the tokens that its `updateMany` finds.  A session of the old password
is ended by the reset unless it is in between: a login that inserts its token after the hash it has
compared was replaced, or a token, of a login or a rotation, inserted between the snapshot of the
reset's revocation and its commit (`endsOldSessions`).  In a run without the two, a reset has found
each token there is of a login's session (`Caught`), an open token always is of a session whose
password is the user's (`Sound`), and so no session of a replaced password has one
(`password_reset_final`).
-/

namespace ResourceHive.Sessions

/-- The hash of a user's password. -/
def Database.passwordHash? (db : Database) (userId : Uuid) : Option String :=
  (db.user? userId).bind (·.passwordHash)

/-- **The strength of a session**: its user, and the hash that the password given for it is compared
with, or was. -/
def Point.strength : Point → Option (Uuid × String)
  | .loginCompare user passwordHash _ => some (user.id, passwordHash)
  | .createSessionForUser userId (some passwordHash)
  | .sessionAccess userId _ (some passwordHash) => some (userId, passwordHash)
  | .issuing token (some passwordHash)
  | .finished (.session token (some passwordHash)) => some (token.userId, passwordHash)
  | _ => none

/-- A login of the user has been answered with the first token of the family, and the password it
was given is the user's. -/
def issued (s : Sessions Database Point Empty) (userId familyId : Uuid) : Bool :=
  s.calls.any fun c => match c.pc with
    | .finished (.session token (some passwordHash)) => decide (token.userId = userId)
        && decide (token.familyId = familyId)
        && decide (s.db.passwordHash? userId = some passwordHash)
    | _ => false

/-- A reset of the user is between the snapshot of its revocation and its commit. -/
def resetInFlight (s : Sessions Database Point Empty) (userId : Uuid) : Bool :=
  s.calls.any fun c => match c.pc with
    | .resetting stored _ _ _ => decide (stored.userId = userId)
    | _ => false

/-- **The condition**: a login inserts its token while the hash it has compared is still the user's;
and from the snapshot of a reset to its commit no login of the user inserts a token, and no session
of the password it replaces is rotated. -/
def endsOldSessions (s : Sessions Database Point Empty) : Label Point Reading Outside → Bool
  | .commit i => s.calls[i]?.all fun c => match c.pc with
    | .issuing token (some passwordHash) =>
      decide (s.db.passwordHash? token.userId = some passwordHash) && !resetInFlight s token.userId
    | .rotating stored _ _ _ =>
      !(issued s stored.userId stored.familyId && resetInFlight s stored.userId)
    | _ => true
  | _ => true

/-- **What `bcrypt.hash` promises**: with its salt, a new hash is none that anyone has compared; and
nothing but a reset replaces a hash. -/
def salted (s : Sessions Database Point Empty) : Label Point Reading Outside → Bool
  | .commit i => s.calls[i]?.all fun c => match c.pc with
    | .resetting stored passwordHash _ _ => s.calls.all fun d =>
      decide (d.pc.strength ≠ some (stored.userId, passwordHash))
    | _ => true
  | .outside (.users users) => s.db.users.all fun u =>
      decide ((users.find? (·.id = u.id)).bind (·.passwordHash) = s.db.passwordHash? u.id)
  | _ => true

/-- The runs in question. -/
abbrev orderly (s : Sessions Database Point Empty) (l : Label Point Reading Outside) : Prop :=
  endsOldSessions s l ∧ salted s l

variable {K : Crypto} {db db' : Database}

/-! ## Who writes a hash -/

theorem users_exec {w : Write} (hw : ∀ u h, w ≠ .updatePassword u h) (h : w.exec db = some db') :
    db'.users = db.users := by
  cases w with
  | updatePassword u hash => exact absurd rfl (hw u hash)
  | claim | create | start | claimReset =>
    simp only [Write.exec, Option.ite_none_right_eq_some, Option.map_eq_some_iff] at h
    obtain ⟨-, _, -, rfl⟩ := h
    rfl
  | revoke | switch | claimResets =>
    obtain ⟨_, -, rfl⟩ := Option.map_eq_some_iff.mp h
    rfl

theorem users_replay {ws : List Write} (hws : ∀ w ∈ ws, ∀ u h, w ≠ .updatePassword u h)
    (h : (code K).replay ws db = some db') : db'.users = db.users := by
  induction ws generalizing db with
  | nil =>
    obtain rfl : db = db' := Option.some.inj h
    rfl
  | cons w ws ih =>
    obtain ⟨db₁, hw, hrest⟩ := Option.bind_eq_some_iff.mp h
    exact (ih (fun w' hw' => hws w' (List.mem_cons_of_mem w hw')) hrest).trans
      (users_exec (hws w List.mem_cons_self) hw)

theorem passwordHash?_of_update {userId : Uuid} {passwordHash : String}
    (huser : (db.user? userId).isSome)
    (h : db'.users = db.users.map fun u =>
      if u.id = userId then { u with passwordHash := some passwordHash } else u) (v : Uuid) :
    db'.passwordHash? v = if v = userId then some passwordHash else db.passwordHash? v := by
  have hkeep : ((fun u : User => decide (u.id = v)) ∘ fun u : User =>
      if u.id = userId then { u with passwordHash := some passwordHash } else u) =
        fun u => decide (u.id = v) := by
    funext u
    by_cases hu : u.id = userId <;> simp [hu]
  rw [Database.passwordHash?, Database.user?, h, List.find?_map, hkeep, Database.passwordHash?,
    Database.user?]
  by_cases hv : v = userId
  · subst hv
    obtain ⟨u, hu⟩ := Option.isSome_iff_exists.mp huser
    have hid := id_of_user? hu
    rw [Database.user?] at hu
    simp [hu, hid]
  · cases hf : db.user? v with
    | none =>
      rw [Database.user?] at hf
      simp [hf, hv]
    | some u =>
      have hid := id_of_user? hf
      rw [Database.user?] at hf
      simp [hf, hid, hv]

theorem replay_reset {stored : PasswordResetToken} {passwordHash : String} {ids : List Uuid}
    {r : Revocation}
    (h : (code K).replay ((code K).writes (.resetting stored passwordHash ids r)) db = some db')
    (u : Uuid) :
    db'.passwordHash? u = if u = stored.userId then some passwordHash else db.passwordHash? u := by
  simp only [code, Code.replay_cons, Code.replay_nil, Option.bind_eq_some_iff, Write.exec,
    Option.ite_none_right_eq_some, Option.map_eq_some_iff, Option.some.injEq] at h
  obtain ⟨_, ⟨-, _, -, rfl⟩, _, ⟨huser, rfl⟩, _, ⟨_, -, rfl⟩, _, ⟨_, -, rfl⟩, rfl⟩ := h
  exact passwordHash?_of_update huser rfl u

/-- **The commit of a reset replaces one user's hash, and no other commit any.** -/
theorem passwordHash_commit {p : Point} (h : (code K).replay ((code K).writes p) db = some db') :
    (∃ stored passwordHash ids r, p = .resetting stored passwordHash ids r
        ∧ ∀ u, db'.passwordHash? u =
            if u = stored.userId then some passwordHash else db.passwordHash? u)
      ∨ db'.users = db.users := by
  cases p with
  | resetting stored passwordHash ids r =>
    exact .inl ⟨stored, passwordHash, ids, r, rfl, replay_reset h⟩
  | login | loginCompare | createSessionForUser | sessionAccess | issuing | refreshSession
  | refreshContext | refreshAccess | rotating | revokeSession | revokeRefreshTokenFamily | revoking
  | switchActiveUniversity | switchFind | switchUpdate | switching | switchUser | resetPassword
  | resetTransaction | finished | failed => exact .inr (users_replay (by simp [code]) h)

theorem passwordHash?_of_users (h : db'.users = db.users) (u : Uuid) :
    db'.passwordHash? u = db.passwordHash? u := by
  rw [Database.passwordHash?, Database.user?, h]
  rfl

/-- A hash that is there is still there after others have changed the accounts. -/
theorem passwordHash_outside {s : Sessions Database Point Empty} {x : Outside}
    (h : (code K).outside x s.db = some db') (hsalted : salted s (.outside x)) {u : Uuid}
    {passwordHash : String} (hu : s.db.passwordHash? u = some passwordHash) :
    db'.passwordHash? u = some passwordHash := by
  cases x with
  | users users =>
    obtain rfl := Option.some.inj h
    obtain ⟨user, huser, hhash⟩ := Option.bind_eq_some_iff.mp hu
    have hsame := of_decide_eq_true
      (List.all_eq_true.mp hsalted user (List.mem_of_find?_eq_some huser))
    rw [id_of_user? huser] at hsame
    exact hsame.trans hu
  | directory =>
    obtain rfl := Option.some.inj h
    exact hu
  | requestReset token =>
    obtain ⟨_, -, rfl⟩ := Option.map_eq_some_iff.mp h
    exact hu

/-! ## Open sessions are of the user's password -/

/-- **What is known of a call**: the first token of the session it has started is there, and while a
token of the family is open, the password the session was started with is the user's.  A revocation
is not the end of a login, and one by a reset is of its user's tokens. -/
def Sound (db : Database) : Point → Prop
  | .finished (.session token (some passwordHash)) => db.Knows token
      ∧ ∀ k ∈ db.refreshTokens, k.familyId = token.familyId → k.Open →
          db.passwordHash? token.userId = some passwordHash
  | .revokeRefreshTokenFamily _ _ answer | .revoking _ answer =>
      ∀ token passwordHash, answer ≠ .session token passwordHash
  | .resetting stored _ _ r => r.scope = .user stored.userId
  | _ => True

/-- An open row is in a family that had an open one, or in a new one. -/
def Continues (db db' : Database) : Prop :=
  ∀ k ∈ db'.refreshTokens, k.Open →
    (∃ v ∈ db.refreshTokens, v.familyId = k.familyId ∧ v.Open)
      ∨ ∀ v ∈ db.refreshTokens, v.familyId ≠ k.familyId

theorem Ages.continues (h : Ages db db') : Continues db db' := fun k hk hopen => by
  obtain ⟨v, hv, hvk, hwas⟩ := h.opened hk
  exact .inl ⟨v, hv, (RefreshToken.identity_eq hvk).2.2.1, hwas hopen⟩

theorem Continues.insert {n : RefreshToken} {db₁ : Database} (h : Continues db db₁)
    (hins : db₁.refreshTokens.insert n = some db'.refreshTokens)
    (hn : (∃ v ∈ db.refreshTokens, v.familyId = n.familyId ∧ v.Open)
      ∨ ∀ v ∈ db.refreshTokens, v.familyId ≠ n.familyId) : Continues db db' := fun k hk hopen => by
  rcases (Table.mem_insert hins).mp hk with hk | rfl
  · exact h k hk hopen
  · exact hn

/-- Every commit continues open families: the token of a rotation was open. -/
theorem continues_commit {p : Point} (hp : ∀ t, p.copy = some t → db.Knows t)
    (hrep : (code K).replay ((code K).writes p) db = some db') : Continues db db' := by
  rcases commit_cases hrep with ⟨stored, _, _, x, t, rfl, hrot⟩ | ⟨_, _, -, hfresh, hins⟩ | hages
  · obtain ⟨db₁, hages, -, hins⟩ := hrot.rows
    obtain ⟨-, -, hfam, -⟩ :=
      RefreshToken.identity_eq ((hp stored rfl).identity_eq hrot.mem hrot.id)
    exact hages.continues.insert hins (.inl ⟨t, hrot.mem, hfam, hrot.unused, hrot.unrevoked⟩)
  · exact (Ages.of_eq rfl).continues.insert hins (.inr hfresh)
  · exact hages.continues

/-- Through a change that keeps the hash of a session's user, or leaves the session nothing open. -/
theorem Sound.mono {p : Point} (h : Sound db p)
    (hknows : ∀ t, db.Knows t → db'.Knows t) (hcont : Continues db db')
    (hhash : ∀ token passwordHash, p = .finished (.session token (some passwordHash)) →
      db.passwordHash? token.userId = some passwordHash →
        db'.passwordHash? token.userId = some passwordHash
          ∨ ∀ k ∈ db'.refreshTokens, k.familyId = token.familyId → ¬ k.Open) :
    Sound db' p := by
  unfold Sound at h ⊢
  split at h
  · next token passwordHash =>
    obtain ⟨hk, hsound⟩ := h
    refine ⟨hknows _ hk, fun k hk' hf hopen => ?_⟩
    rcases hcont k hk' hopen with ⟨v, hv, hvf, hvopen⟩ | hnew
    · rcases hhash _ _ rfl (hsound v hv (hvf.trans hf) hvopen) with hsame | hdead
      · exact hsame
      · exact absurd hopen (hdead k hk' hf)
    · obtain ⟨t, ht, hid⟩ := hk
      exact absurd ((RefreshToken.identity_eq hid).2.2.1.trans hf.symm) (hnew t ht)
  · exact h
  · exact h
  · exact h
  · trivial

/-! ## The outline -/

theorem sound_login (user : Option User) (password : String) :
    Sound db (login user password) := by
  cases user with
  | none => trivial
  | some user =>
    simp only [login]
    split_ifs
    · trivial
    · split <;> trivial

theorem sound_loginCompare (user : User) (passwordHash password : String) :
    Sound db (loginCompare K user passwordHash password) := by
  simp only [loginCompare]
  split_ifs <;> trivial

theorem sound_refreshSession (stored : Option RefreshToken) (now : Timestamp) :
    Sound db (refreshSession db stored now) := by
  cases stored with
  | none => trivial
  | some stored =>
    rcases refreshSession_cases db stored now with heq | ⟨user, -, -, heq | ⟨-, heq⟩⟩ <;> rw [heq]
    · exact fun _ _ => nofun
    · trivial
    · trivial

theorem sound_revokeSession (stored : Option RefreshToken) (now : Timestamp) :
    Sound db (revokeSession stored now) := by
  cases stored with
  | none => trivial
  | some stored => exact fun _ _ => nofun

theorem sound_switchFind (userId root : Uuid) (token : Option RefreshToken) (now : Timestamp) :
    Sound db (switchFind userId root token now) := by
  cases token with
  | none => trivial
  | some token =>
    simp only [switchFind]
    split_ifs <;> trivial

theorem sound_resetPassword (stored : Option PasswordResetToken) (password : String)
    (now : Timestamp) : Sound db (resetPassword K db stored password now) := by
  cases stored with
  | none => trivial
  | some stored =>
    simp only [resetPassword]
    split_ifs <;> trivial

theorem Sound.read {p p' : Point} {x : Reading} (hp : Sound db p)
    (h : p.read K db x = some p') : Sound db p' := by
  cases p with
  | login email password =>
    obtain rfl := Option.some.inj h
    split
    · exact sound_login ..
    · trivial
  | loginCompare =>
    obtain rfl := Option.some.inj h
    exact sound_loginCompare ..
  | createSessionForUser | sessionAccess | refreshAccess | switchUpdate =>
    obtain rfl := Option.some.inj h
    trivial
  | switchUser userId =>
    obtain rfl := Option.some.inj h
    split <;> trivial
  | refreshSession token =>
    obtain rfl := Option.some.inj h
    split
    · trivial
    · exact sound_refreshSession ..
  | refreshContext stored user now =>
    obtain rfl := Option.some.inj h
    split
    · trivial
    · exact fun _ _ => nofun
  | revokeSession token =>
    obtain rfl := Option.some.inj h
    split
    · trivial
    · exact sound_revokeSession ..
  | revokeRefreshTokenFamily familyId revokedAt answer =>
    obtain rfl := Option.some.inj h
    exact hp
  | switchActiveUniversity userId root token =>
    obtain rfl := Option.some.inj h
    split
    · trivial
    · split <;> trivial
  | switchFind =>
    obtain rfl := Option.some.inj h
    exact sound_switchFind ..
  | resetPassword =>
    obtain rfl := Option.some.inj h
    exact sound_resetPassword ..
  | resetTransaction stored =>
    obtain rfl := Option.some.inj h
    rfl
  | issuing | rotating | revoking | switching | resetting | finished | failed => cases h

theorem Sound.rolledBack {p : Point} (hp : Sound db p) : Sound db ((code K).rolledBack p) := by
  cases p with
  | finished => exact hp
  | login | loginCompare | createSessionForUser | sessionAccess | issuing | refreshSession
  | refreshContext | refreshAccess | rotating | revokeSession | revokeRefreshTokenFamily | revoking
  | switchActiveUniversity | switchFind | switchUpdate | switching | switchUser | resetPassword
  | resetTransaction | resetting | failed => trivial

/-- **A login's commit**: the token is the only one of its family, and it was compared with the hash
that is the user's. -/
theorem Sound.committed {s : Sessions Database Point Empty} {i : ℕ} {c : Session Point}
    (hends : endsOldSessions s (.commit i)) (hc : s.calls[i]? = some c) (hp : Sound s.db c.pc)
    (hne : (code K).writes c.pc ≠ [])
    (hrep : (code K).replay ((code K).writes c.pc) s.db = some db) :
    Sound db ((code K).committed c.pc) := by
  obtain ⟨p, n⟩ := c
  cases p with
  | issuing token passwordHash =>
    cases passwordHash with
    | none => trivial
    | some passwordHash =>
      simp only [endsOldSessions, hc, Option.all_some, Bool.and_eq_true, decide_eq_true_eq] at hends
      obtain ⟨hfresh, hins⟩ := replay_start hrep
      have husers : db.users = s.db.users := users_replay (by simp [code]) hrep
      refine ⟨⟨token, (Table.mem_insert hins).mpr (.inr rfl), rfl⟩, fun k hk hf _ => ?_⟩
      rcases (Table.mem_insert hins).mp hk with hk | rfl
      · exact absurd hf (hfresh k hk)
      · rw [passwordHash?_of_users husers]
        exact hends.1
  | revoking r answer =>
    cases answer with
    | returned | refreshed | threw => trivial
    | session token passwordHash => exact absurd rfl (hp token passwordHash)
  | switching | rotating | resetting => trivial
  | login | loginCompare | createSessionForUser | sessionAccess | refreshSession | refreshContext
  | refreshAccess | revokeSession | revokeRefreshTokenFamily | switchActiveUniversity | switchFind
  | switchUpdate | switchUser | resetPassword | resetTransaction | finished | failed =>
    exact absurd rfl hne

/-- **Two calls**: a reset has found each unrevoked token of a session that a login of its user has
begun. -/
def Catches (db : Database) (p q : Point) : Prop :=
  ∀ stored passwordHash ids r token oldHash, p = .resetting stored passwordHash ids r →
    q = .finished (.session token (some oldHash)) → token.userId = stored.userId →
    Unrevoked token.familyId (fun t => t.id ∈ r.ids) db

/-- **What the resets have found**, of all sessions there are. -/
def Caught (s : Sessions Database Point Empty) : Prop :=
  ∀ c ∈ s.calls, ∀ d ∈ s.calls, Catches s.db c.pc d.pc

/-- The tokens of a session are its user's. -/
theorem covers_session (hown : OwnedFamilies db) {token : RefreshToken} (hk : db.Knows token)
    {userId : Uuid} (huser : token.userId = userId) :
    ∀ k ∈ db.refreshTokens, k.familyId = token.familyId → (Scope.user userId).covers k :=
  covers_family hown hk (.inr (congrArg Scope.user huser.symm))

/-- **The outline of an orderly run**: what is known of the copies, and that an open session's
password is its user's. -/
def soundness (K : Crypto) : (code K).Outline (fun s l => orderly s l ∧ Caught s) where
  Inv := (outline K).Inv
  At db hist p := (outline K).At db hist p ∧ Sound db p
  entry {db hist p} hinv hp := by
    refine ⟨(outline K).entry hinv hp, ?_⟩
    cases p with
    | login | createSessionForUser | refreshSession | revokeSession | switchActiveUniversity
    | resetPassword => trivial
    | loginCompare | sessionAccess | issuing | refreshContext | refreshAccess | rotating
    | revokeRefreshTokenFamily | revoking | switchFind | switchUpdate | switching | switchUser
    | resetTransaction | resetting | finished | failed => cases hp
  read hinv hp h := ⟨(outline K).read hinv hp.1 h, hp.2.read h⟩
  rolledBack hinv hp := ⟨(outline K).rolledBack hinv hp.1, hp.2.rolledBack⟩
  commit {s i c db} hok hinv hp hc hne hrep := by
    obtain ⟨⟨hends, hsalted⟩, hcaught⟩ := hok
    obtain ⟨hinv', hat, hothers⟩ := (outline K).commit trivial hinv hp.1 hc hne hrep
    refine ⟨hinv', ⟨hat, .committed hends hc hp.2 hne hrep⟩, fun j d hj hd hdp =>
      ⟨hothers j d hj hd hdp.1, hdp.2.mono (fun t => knows_commit hrep) (continues_commit hp.1 hrep)
        fun token oldHash hpc hold => ?_⟩⟩
    rcases passwordHash_commit hrep with ⟨stored, passwordHash, ids, r, hres, hnew⟩ | husers
    · by_cases huser : token.userId = stored.userId
      · -- the reset ends the session, of whose tokens it has found all
        have hk : s.db.Knows token := by
          have hsound := hdp.2
          rw [hpc] at hsound
          exact hsound.1
        have hscope : r.scope = .user stored.userId := by
          have hsound := hp.2
          rw [hres] at hsound
          exact hsound
        have hcovers : ∀ k ∈ s.db.refreshTokens, k.familyId = token.familyId → r.scope.covers k :=
          hscope ▸ covers_session hinv hk huser
        have hfound := hcaught c (List.mem_of_getElem? hc) d (List.mem_of_getElem? hd)
          _ _ _ _ _ _ hres hpc huser
        obtain ⟨t, ht, hid⟩ := hk
        have hdead : Dead token.familyId db := .of_revocation (by rw [hres]; rfl)
          ⟨t, ht, (RefreshToken.identity_eq hid).2.2.1⟩ hcovers hfound hrep
        exact .inr hdead.2
      · exact .inl (by rw [hnew, if_neg huser, hold])
    · exact .inl (by rw [passwordHash?_of_users husers, hold])
  outside {s x db} hok hinv hx := by
    obtain ⟨hinv', hat⟩ := (outline K).outside trivial hinv hx
    have hages : Ages s.db db := .of_eq (outside_refreshTokens hx)
    refine ⟨hinv', fun c hc hp => ⟨hat c hc hp.1, hp.2.mono (fun t ht => ?_) hages.continues
      fun token oldHash _ hold => .inl (passwordHash_outside hx hok.1.2 hold)⟩⟩
    obtain ⟨u, hu, hut⟩ := ht
    exact ⟨u, (outside_refreshTokens hx).symm ▸ hu, hut⟩

/-! ## What a reset has found -/

/-- Where a call is that `Caught` is about. -/
def Point.Counts : Point → Prop
  | .resetting _ _ _ _ | .finished (.session _ _) => True
  | _ => False

theorem not_counts_login (user : Option User) (password : String) :
    ¬ (login user password).Counts := by
  cases user with
  | none => exact id
  | some user =>
    simp only [login]
    split_ifs
    · exact id
    · split <;> exact id

theorem not_counts_resetPassword (stored : Option PasswordResetToken) (password : String)
    (now : Timestamp) : ¬ (resetPassword K db stored password now).Counts := by
  cases stored with
  | none => exact id
  | some stored =>
    simp only [resetPassword]
    split_ifs <;> exact id

theorem not_counts_switchFind (userId root : Uuid) (token : Option RefreshToken)
    (now : Timestamp) : ¬ (switchFind userId root token now).Counts := by
  cases token with
  | none => exact id
  | some token =>
    simp only [switchFind]
    split_ifs <;> exact id

/-- **The only read that leads there** takes the snapshot of a reset. -/
theorem read_counts {p p' : Point} {x : Reading} (h : p.read K db x = some p') (hp' : p'.Counts) :
    ∃ stored, p = .resetTransaction stored := by
  cases p with
  | resetTransaction stored => exact ⟨stored, rfl⟩
  | login email password =>
    obtain rfl := Option.some.inj h
    split at hp'
    · exact absurd hp' (not_counts_login _ _)
    · exact hp'.elim
  | loginCompare user passwordHash password =>
    obtain rfl := Option.some.inj h
    simp only [loginCompare] at hp'
    split_ifs at hp' <;> exact hp'.elim
  | refreshSession token =>
    obtain rfl := Option.some.inj h
    split at hp'
    · exact hp'.elim
    · next token _ =>
      cases hstored : db.refreshTokens.find? (·.tokenHash = K.hashToken token) with
      | none =>
        rw [hstored] at hp'
        exact hp'.elim
      | some stored =>
        rw [hstored] at hp'
        rcases refreshSession_cases db stored x.now with heq | ⟨user, -, -, heq | ⟨-, heq⟩⟩ <;>
          rw [heq] at hp' <;> exact hp'.elim
  | refreshContext stored user now =>
    obtain rfl := Option.some.inj h
    split at hp' <;> exact hp'.elim
  | revokeSession token =>
    obtain rfl := Option.some.inj h
    split at hp'
    · exact hp'.elim
    · unfold revokeSession at hp'
      split at hp' <;> exact hp'.elim
  | switchActiveUniversity userId root token =>
    obtain rfl := Option.some.inj h
    split at hp'
    · exact hp'.elim
    · split at hp' <;> exact hp'.elim
  | switchFind =>
    obtain rfl := Option.some.inj h
    exact absurd hp' (not_counts_switchFind _ _ _ _)
  | switchUser userId =>
    obtain rfl := Option.some.inj h
    split at hp' <;> exact hp'.elim
  | resetPassword =>
    obtain rfl := Option.some.inj h
    exact absurd hp' (not_counts_resetPassword _ _ _)
  | createSessionForUser | sessionAccess | refreshAccess | switchUpdate
  | revokeRefreshTokenFamily =>
    obtain rfl := Option.some.inj h
    exact hp'.elim
  | issuing | rotating | revoking | switching | resetting | finished | failed => cases h

theorem Catches.of_not_counts {p q : Point} (h : ¬ p.Counts ∨ ¬ q.Counts) : Catches db p q := by
  rintro stored passwordHash ids r token oldHash rfl rfl -
  rcases h with h | h <;> exact absurd trivial h

theorem Catches.self {p : Point} : Catches db p p := by
  rintro stored passwordHash ids r token oldHash rfl hpc
  cases hpc

theorem not_counts_entry {p : Point} (h : (code K).entry p = true) : ¬ p.Counts := by
  cases p with
  | resetting | finished => cases h
  | _ => exact id

section Steps

variable {s t : Sessions Database Point Empty} {i : ℕ} {c d : Session Point}
  {l : Label Point Reading Outside}

/-- A call that has its session, and its token's row. -/
theorem knows_session (hs : (soundness K).Holds s) (hd : d ∈ s.calls) {token : RefreshToken}
    {oldHash : String} (hpc : d.pc = .finished (.session token (some oldHash))) :
    s.db.Knows token := by
  have hsound := (hs.2 d hd).2
  rw [hpc] at hsound
  exact hsound.1

/-- **The snapshot of a reset** has the tokens of each session of its user. -/
theorem Catches.of_read {p p' : Point} {x : Reading} (hs : (soundness K).Holds s) (hd : d ∈ s.calls)
    (h : p.read K s.db x = some p') : Catches s.db p' d.pc := by
  rintro stored passwordHash ids r token oldHash rfl hpc huser
  obtain ⟨stored', rfl⟩ := read_counts h trivial
  obtain ⟨rfl, -, -, rfl⟩ := Point.resetting.inj (Option.some.inj h)
  exact unrevoked_snapshot (covers_session hs.inv (knows_session hs hd hpc) huser)

/-- **A commit between a reset's snapshot and its own** adds no token to a session of its user. -/
theorem Catches.commit {e : Session Point} (hs : (soundness K).Holds s)
    (hok : endsOldSessions s (.commit i)) (he : s.calls[i]? = some e) (hc : c ∈ s.calls)
    (hd : d ∈ s.calls) (h : Catches s.db c.pc d.pc)
    (hrep : (code K).replay ((code K).writes e.pc) s.db = some db) : Catches db c.pc d.pc := by
  intro stored passwordHash ids r token oldHash hpc hqc huser
  obtain ⟨row, hrow, hid⟩ := knows_session hs hd hqc
  obtain ⟨-, hrowuser, hrowfam, -⟩ := RefreshToken.identity_eq hid
  refine (h _ _ _ _ _ _ hpc hqc huser).commit mem_ids ⟨row, hrow, hrowfam⟩ ?_ hrep
  intro stored' accessToken now x hpe hf
  -- a rotation of the session: its password still is the user's, and no reset of his is in flight
  obtain ⟨k, hrot⟩ := replay_rotation (hpe ▸ hrep)
  have hknown : s.db.Knows stored' := (hs.at he).1 stored' (by rw [hpe]; rfl)
  obtain ⟨-, hkuser, hkfam, -⟩ := RefreshToken.identity_eq (hknown.identity_eq hrot.mem hrot.id)
  have hsound := (hs.2 d hd).2
  rw [hqc] at hsound
  have hhash := hsound.2 k hrot.mem (hkfam.trans hf) ⟨hrot.unused, hrot.unrevoked⟩
  have hsame : stored'.userId = token.userId := by
    rw [← hkuser, ← hrowuser]
    exact hs.inv k hrot.mem row hrow ((hkfam.trans hf).trans hrowfam.symm)
  have hissued : issued s stored'.userId stored'.familyId := by
    refine List.any_eq_true.mpr ⟨d, hd, ?_⟩
    simp [hqc, hsame, hf, hhash]
  have hflight : resetInFlight s stored'.userId := by
    refine List.any_eq_true.mpr ⟨c, hc, ?_⟩
    simp [hpc, hsame, huser]
  simp [endsOldSessions, he, hpe, hissued, hflight] at hok

/-- **A login that commits** is of a user whom no reset is about to reset. -/
theorem Catches.committed {e : Session Point} (hs : (soundness K).Holds s)
    (hok : endsOldSessions s (.commit i)) (he : s.calls[i]? = some e) (hne : (code K).writes e.pc ≠ [])
    (hc : c ∈ s.calls) : Catches db c.pc ((code K).committed e.pc) := by
  intro stored passwordHash ids r token oldHash hpc hqc huser
  obtain ⟨p, n⟩ := e
  cases p with
  | issuing token' passwordHash' =>
    obtain ⟨rfl, rfl⟩ := Answer.session.inj (Point.finished.inj hqc)
    have hflight : resetInFlight s token'.userId := by
      refine List.any_eq_true.mpr ⟨c, hc, ?_⟩
      simp [hpc, huser]
    simp [endsOldSessions, he, hflight] at hok
  | revoking r' answer => exact absurd (Point.finished.inj hqc) ((hs.at he).2 token _)
  | switching | rotating | resetting => simp [code] at hqc
  | login | loginCompare | createSessionForUser | sessionAccess | refreshSession | refreshContext
  | refreshAccess | revokeSession | revokeRefreshTokenFamily | switchActiveUniversity | switchFind
  | switchUpdate | switchUser | resetPassword | resetTransaction | finished | failed =>
    exact absurd rfl hne

/-- No commit begins a reset's transaction. -/
theorem committed_ne_resetting {p : Point} (hne : (code K).writes p ≠ [])
    {stored : PasswordResetToken} {passwordHash : String} {ids : List Uuid} {r : Revocation} :
    (code K).committed p ≠ .resetting stored passwordHash ids r := by
  cases p with
  | issuing | rotating | revoking | switching | resetting => simp [code]
  | login | loginCompare | createSessionForUser | sessionAccess | refreshSession | refreshContext
  | refreshAccess | revokeSession | revokeRefreshTokenFamily | switchActiveUniversity | switchFind
  | switchUpdate | switchUser | resetPassword | resetTransaction | finished | failed =>
    exact absurd rfl hne

/-- A rollback begins neither. -/
theorem rolledBack_counts {p : Point} (h : ((code K).rolledBack p).Counts) :
    (code K).rolledBack p = p := by
  cases p with
  | finished => rfl
  | _ => exact h.elim

/-- **The step lemma.** -/
theorem Caught.step (hs : (soundness K).Holds s) (h : Caught s) (hok : endsOldSessions s l)
    (hstep : (code K).step s l = some t) : Caught t := by
  cases Code.step_cases hstep with
  | call hp =>
    intro c hc d hd
    rcases List.mem_append.mp hc with hc | hc
    · rcases List.mem_append.mp hd with hd | hd
      · exact h c hc d hd
      · obtain rfl := List.mem_singleton.mp hd
        exact .of_not_counts (.inr (not_counts_entry hp))
    · obtain rfl := List.mem_singleton.mp hc
      exact .of_not_counts (.inl (not_counts_entry hp))
  | read _ _ hread =>
    intro c hc d hd
    rcases Code.mem_set_cases hc with rfl | ⟨_, -, hc⟩ <;>
      rcases Code.mem_set_cases hd with rfl | ⟨_, -, hd⟩
    · exact .self
    · rw [Code.moveTo_db]
      exact .of_read hs (List.mem_of_getElem? hd) hread
    · intro stored passwordHash ids r token oldHash _ hqc
      dsimp only at hqc
      subst hqc
      obtain ⟨stored', hpc⟩ := read_counts hread trivial
      rw [hpc] at hread
      cases hread
    · exact h c (List.mem_of_getElem? hc) d (List.mem_of_getElem? hd)
  | @write i e he =>
    have hold {c : Session Point} (hc : c ∈ s.calls.set i ⟨e.pc, e.executed + 1⟩) :
        ∃ c' ∈ s.calls, c'.pc = c.pc := by
      rcases Code.mem_set_cases hc with rfl | ⟨_, -, hc⟩
      · exact ⟨e, List.mem_of_getElem? he, rfl⟩
      · exact ⟨c, List.mem_of_getElem? hc, rfl⟩
    intro c hc d hd
    obtain ⟨c', hc', hcpc⟩ := hold hc
    obtain ⟨d', hd', hdpc⟩ := hold hd
    exact hcpc ▸ hdpc ▸ h c' hc' d' hd'
  | @commit i e db he hpos hall hrep =>
    have hne := List.ne_nil_of_length_pos (hall ▸ hpos)
    intro c hc d hd
    rcases Code.mem_set_cases hc with rfl | ⟨_, -, hc⟩
    · exact fun _ _ _ _ _ _ hpc => absurd hpc (committed_ne_resetting hne)
    · rcases Code.mem_set_cases hd with rfl | ⟨_, -, hd⟩
      · exact .committed hs hok he hne (List.mem_of_getElem? hc)
      · have hc := List.mem_of_getElem? hc
        have hd := List.mem_of_getElem? hd
        exact (h c hc d hd).commit hs hok he hc hd hrep
  | @rollback i e he =>
    intro c hc d hd
    rcases Code.mem_set_cases hc with rfl | ⟨_, -, hc⟩ <;>
      rcases Code.mem_set_cases hd with rfl | ⟨_, -, hd⟩
    · exact .self
    · by_cases hcounts : ((code K).rolledBack e.pc).Counts
      · rw [rolledBack_counts hcounts]
        exact h e (List.mem_of_getElem? he) d (List.mem_of_getElem? hd)
      · exact .of_not_counts (.inl hcounts)
    · by_cases hcounts : ((code K).rolledBack e.pc).Counts
      · rw [rolledBack_counts hcounts]
        exact h c (List.mem_of_getElem? hc) e (List.mem_of_getElem? he)
      · exact .of_not_counts (.inr hcounts)
    · exact h c (List.mem_of_getElem? hc) d (List.mem_of_getElem? hd)
  | outside hx =>
    intro c hc d hd stored passwordHash ids r token oldHash hpc hqc huser
    exact (h c hc d hd _ _ _ _ _ _ hpc hqc huser).ages mem_ids (.of_eq (outside_refreshTokens hx))

theorem sound_of_reachable (hs : (machine K).Reachable orderly s) :
    (soundness K).Holds s ∧ Caught s :=
  hs.invariant (I := fun s => (soundness K).Holds s ∧ Caught s)
    (fun {s} ⟨hinit, hhist, hcalls⟩ => ⟨⟨hinit, by simp [hcalls]⟩, by simp [Caught, hcalls]⟩)
    fun ⟨hs, h⟩ hok hstep => ⟨hs.step ⟨hok, h⟩ hstep, h.step hs hok.1 hstep⟩

end Steps

/-! ## A password that was replaced -/

/-- The call has ended without a session. -/
def Point.Denied (p : Point) : Prop := ∃ e, p = .failed e ∨ ∃ e', p = .finished (.threw e')

/-- **Outdated**: the call holds a hash of the user that is not the user's, or has been denied. -/
def Outdated (userId : Uuid) (oldHash : String) (i : ℕ) (s : Sessions Database Point Empty) : Prop :=
  ∃ c, s.calls[i]? = some c ∧ (c.pc.Denied ∨ c.pc.strength = some (userId, oldHash)
    ∧ ∃ passwordHash, s.db.passwordHash? userId = some passwordHash ∧ passwordHash ≠ oldHash)

variable {userId : Uuid} {oldHash : String}

/-- A read keeps the hash a call holds, or denies it. -/
theorem strength_read {p p' : Point} {x : Reading} (hp : p.strength = some (userId, oldHash))
    (h : p.read K db x = some p') : p'.Denied ∨ p'.strength = some (userId, oldHash) := by
  cases p with
  | loginCompare user passwordHash password =>
    obtain rfl := Option.some.inj h
    simp only [loginCompare]
    split_ifs
    · exact .inl ⟨none, .inr ⟨_, rfl⟩⟩
    · exact .inr hp
    · exact .inl ⟨none, .inr ⟨_, rfl⟩⟩
  | createSessionForUser userId' passwordHash | sessionAccess userId' root passwordHash =>
    obtain rfl := Option.some.inj h
    cases passwordHash with
    | none => cases hp
    | some passwordHash => exact .inr hp
  | issuing | finished => cases h
  | login | refreshSession | refreshContext | refreshAccess | rotating | revokeSession
  | revokeRefreshTokenFamily | revoking | switchActiveUniversity | switchFind | switchUpdate
  | switching | switchUser | resetPassword | resetTransaction | resetting | failed => cases hp

theorem strength_rolledBack {p : Point} (hp : p.strength = some (userId, oldHash)) :
    ((code K).rolledBack p).Denied ∨ ((code K).rolledBack p).strength = some (userId, oldHash) := by
  cases p with
  | finished => exact .inr hp
  | loginCompare | createSessionForUser | sessionAccess | issuing =>
    exact .inl ⟨none, .inl rfl⟩
  | login | refreshSession | refreshContext | refreshAccess | rotating | revokeSession
  | revokeRefreshTokenFamily | revoking | switchActiveUniversity | switchFind | switchUpdate
  | switching | switchUser | resetPassword | resetTransaction | resetting | failed => cases hp

theorem strength_committed {p : Point} (hp : p.strength = some (userId, oldHash)) :
    ((code K).committed p).strength = some (userId, oldHash) := by
  cases p with
  | issuing token passwordHash =>
    cases passwordHash with
    | none => cases hp
    | some passwordHash => exact hp
  | loginCompare | createSessionForUser | sessionAccess | finished => exact hp
  | login | refreshSession | refreshContext | refreshAccess | rotating | revokeSession
  | revokeRefreshTokenFamily | revoking | switchActiveUniversity | switchFind | switchUpdate
  | switching | switchUser | resetPassword | resetTransaction | resetting | failed => cases hp

/-- A call that was denied has no step left but to be rolled back where it is. -/
theorem Point.Denied.moves {s t : Sessions Database Point Empty} {i : ℕ} {c : Session Point}
    {l : Label Point Reading Outside} (h : c.pc.Denied) (hmoves : (code K).CallMoves s i c l t) :
    ∃ d, t.calls[i]? = some d ∧ d.pc.Denied := by
  obtain ⟨p, n⟩ := c
  obtain ⟨e, rfl | ⟨e', rfl⟩⟩ := h <;> cases hmoves with
  | other hl hc => exact ⟨_, hc, e, by simp⟩
  | read hread => cases hread
  | write hlt => exact absurd hlt (Nat.not_lt_zero _)
  | commit hne => exact absurd rfl hne
  | rollback hdb hc => exact ⟨_, hc, e, by simp [code]⟩

/-- **While a call holds a hash that was replaced, it stays replaced.** -/
theorem replaced_step {s t : Sessions Database Point Empty} {l : Label Point Reading Outside}
    (hsalted : salted s l) (hstep : (code K).step s l = some t) {d : Session Point}
    (hd : d ∈ s.calls) (hheld : d.pc.strength = some (userId, oldHash))
    (h : ∃ passwordHash, s.db.passwordHash? userId = some passwordHash ∧ passwordHash ≠ oldHash) :
    ∃ passwordHash, t.db.passwordHash? userId = some passwordHash ∧ passwordHash ≠ oldHash := by
  obtain ⟨current, hcurrent, hne⟩ := h
  cases Code.step_cases hstep with
  | call | read | write | rollback => exact ⟨current, hcurrent, hne⟩
  | commit hc hpos hall hrep =>
    rcases passwordHash_commit hrep with ⟨stored, passwordHash, ids, r, hpc, hnew⟩ | husers
    · by_cases huser : userId = stored.userId
      · refine ⟨passwordHash, by rw [Code.moveTo_db, hnew, if_pos huser], ?_⟩
        rintro rfl
        simp only [salted, hc, Option.all_some, hpc, List.all_eq_true, decide_eq_true_eq] at hsalted
        exact hsalted d hd (huser ▸ hheld)
      · exact ⟨current, by rw [Code.moveTo_db, hnew, if_neg huser, hcurrent], hne⟩
    · exact ⟨current, by rw [Code.moveTo_db, passwordHash?_of_users husers, hcurrent], hne⟩
  | outside hx => exact ⟨current, passwordHash_outside hx hsalted hcurrent, hne⟩

/-- **The step lemma.** -/
theorem Outdated.step {s t : Sessions Database Point Empty} {l : Label Point Reading Outside}
    {i : ℕ} (h : Outdated userId oldHash i s) (hsalted : salted s l)
    (hstep : (code K).step s l = some t) : Outdated userId oldHash i t := by
  obtain ⟨c, hc, hdenied | ⟨hheld, hreplaced⟩⟩ := h
  · obtain ⟨d, hd, hdd⟩ := hdenied.moves (Code.call_cases hc hstep)
    exact ⟨d, hd, .inl hdd⟩
  · have hlater := replaced_step hsalted hstep (List.mem_of_getElem? hc) hheld hreplaced
    cases Code.call_cases hc hstep with
    | other hl h => exact ⟨c, h, .inr ⟨hheld, hlater⟩⟩
    | read hread hdb hcall => exact ⟨_, hcall, (strength_read hheld hread).imp_right (⟨·, hlater⟩)⟩
    | write hlt hdb hcall => exact ⟨_, hcall, .inr ⟨hheld, hlater⟩⟩
    | commit hne hrep hcall => exact ⟨_, hcall, .inr ⟨strength_committed (K := K) hheld, hlater⟩⟩
    | rollback hdb hcall =>
      exact ⟨_, hcall, (strength_rolledBack (K := K) hheld).imp_right (⟨·, hlater⟩)⟩

/-- **A reset outdates each call that holds a hash of its user.** -/
theorem Outdated.of_reset {s t : Sessions Database Point Empty} {i j n : ℕ}
    {stored : PasswordResetToken} {passwordHash : String} {ids : List Uuid} {r : Revocation}
    {c : Session Point} (hj : s.calls[j]? = some ⟨.resetting stored passwordHash ids r, n⟩)
    (hsalted : salted s (.commit j)) (hstep : (code K).step s (.commit j) = some t)
    (hc : s.calls[i]? = some c) (hheld : c.pc.strength = some (stored.userId, oldHash)) :
    Outdated stored.userId oldHash i t := by
  simp only [salted, hj, Option.all_some, List.all_eq_true, decide_eq_true_eq] at hsalted
  have hij : j ≠ i := by
    rintro rfl
    obtain rfl := Option.some.inj (hj.symm.trans hc)
    cases hheld
  refine ⟨c, ?_, .inr ⟨hheld, passwordHash, ?_, ?_⟩⟩
  · cases Code.call_cases hc hstep with
    | other hl h => exact h
    | commit => exact absurd rfl hij
  · cases Code.call_cases hj hstep with
    | commit hne hrep h =>
      rw [replay_reset hrep, if_pos rfl]
    | other hl => exact absurd rfl hl
  · rintro rfl
    exact hsalted c (List.mem_of_getElem? hc) hheld

/-- **Password reset.**  In a run in which each login inserts its token before the hash it has
compared is replaced, and from the snapshot of a reset to its commit no login of the user inserts a
token and no session of the password being replaced is rotated: once a reset has committed, a session
that any call was, at its commit, on the way to with a hash of the user, or had already, has no token
that is live, in any later state. -/
theorem password_reset_final {s t u : Sessions Database Point Empty}
    (hs : (machine K).Reachable orderly s) {i j m n : ℕ} {stored : PasswordResetToken}
    {passwordHash oldHash : String} {ids : List Uuid} {r : Revocation}
    (hj : s.calls[j]? = some ⟨.resetting stored passwordHash ids r, n⟩)
    (horderly : orderly s (.commit j)) (hstep : (code K).step s (.commit j) = some t)
    {c : Session Point} (hi : s.calls[i]? = some c)
    (hheld : c.pc.strength = some (stored.userId, oldHash))
    (hrun : (machine K).Run orderly t u) {token : RefreshToken} {hash : String}
    (hu : u.calls[i]? = some ⟨.finished (.session token (some hash)), m⟩) :
    ∀ k ∈ u.db.refreshTokens, k.familyId = token.familyId → ∀ τ, ¬ k.Live τ := by
  have hsound := (sound_of_reachable ((hs.run (.single horderly hstep)).run hrun)).1
  have houtdated : Outdated stored.userId oldHash i u :=
    hrun.invariant (I := Outdated stored.userId oldHash i) (.of_reset hj horderly.2 hstep hi hheld)
      fun h hok hstep => h.step hok.2 hstep
  obtain ⟨d, hd, hstate⟩ := houtdated
  obtain rfl := Option.some.inj (hu.symm.trans hd)
  intro k hk hf τ hlive
  rcases hstate with ⟨e, hdenied | ⟨e', hdenied⟩⟩ | ⟨hstrength, current, hcurrent, hne⟩
  · cases hdenied
  · cases hdenied
  · -- A live token of the session would make the hash it holds the user's.
    obtain ⟨huser, rfl⟩ := Prod.mk.inj (Option.some.inj hstrength)
    have hsame := (hsound.at hu).2.2 k hk hf ⟨hlive.1, hlive.2.1⟩
    rw [huser, hcurrent] at hsame
    exact hne (Option.some.inj hsame)

/-! ## One user -/

/-- Passwords that are their own hashes. -/
def comparing : Crypto := ⟨id, fun password passwordHash => decide (password = passwordHash), 100⟩

/-- A verified user who has requested a reset. -/
def oneUser : Sessions Database Point Empty where
  db :=
    { users := [{ id := 10, email := "u", emailVerifiedAt := some 0, passwordHash := some "old" }]
      organizations := []
      memberships := []
      refreshTokens := ⟨[], by decide⟩
      passwordResetTokens :=
        ⟨[{ id := 5, userId := 10, tokenHash := "reset", expiresAt := 100, createdAt := 0 }],
          by decide⟩ }
  history := []
  calls := []

theorem oneUser_init : (machine comparing).init oneUser := ⟨fun _ => nofun, rfl, rfl⟩

/-- The token of the user's login. -/
def loginToken : RefreshToken where
  id := 1
  userId := 10
  familyId := 7
  tokenHash := "a"
  expiresAt := 101
  createdAt := 1

/-- A login up to the insertion of its token. -/
def loggingIn (i : ℕ) : List (Label Point Reading Outside) :=
  [.call (.login (some "u") (some "old")), .read i {}, .read i {}, .read i {},
    .read i { now := 1, id := 1, familyId := 7, text := "a", createdAt := 1 }]

/-- The look-up of a reset. -/
def resetLookUp (i : ℕ) : List (Label Point Reading Outside) :=
  [.call (.resetPassword "reset" "new"), .read i { now := 2 }]

/-- The transaction of a reset up to its commit. -/
def resetUpTo (i : ℕ) : List (Label Point Reading Outside) :=
  [.read i { now := 3, text := "new" }, .write i, .write i, .write i, .write i]

/-- A session that is rotated between the look-up of a reset and its transaction, and while the user
logs in once more: it ends with the commit. -/
theorem password_reset_final_of_login : ∃ t,
    (machine comparing).Reachable orderly t ∧ t.db.passwordHash? 10 = some "new"
      ∧ t.calls.map (·.pc) = [.finished (.session loginToken (some "old")), .finished .returned,
        .finished (.refreshed ⟨10, "u", none, none, none⟩ "b" 101),
        .sessionAccess 10 none (some "old")]
      ∧ ∀ k ∈ t.db.refreshTokens, k.familyId = 7 → ∀ τ, ¬ k.Live τ := by
  let stored : PasswordResetToken :=
    { id := 5, userId := 10, tokenHash := "reset", expiresAt := 100, createdAt := 0 }
  obtain ⟨s, ⟨s₀, hs₀, hrun⟩, hp⟩ := (machine comparing).exists_reachable_guarded (s := oneUser)
    (p := fun s l => endsOldSessions s l && salted s l)
    (q := fun s => isAt 0 (.finished (.session loginToken (some "old"))) s
      && decide (s.calls[1]?
        = some (⟨.resetting stored "new" [5] ⟨.user 10, 3, [1, 2]⟩, 4⟩ : Session Point))
      && (endsOldSessions s (.commit 1) && salted s (.commit 1))
      && ((machine comparing).step s (.commit 1)).any fun t =>
        decide (t.db.passwordHash? 10 = some "new")
          && isAt 0 (.finished (.session loginToken (some "old"))) t
          && decide (t.calls.map (·.pc) = [.finished (.session loginToken (some "old")),
            .finished .returned, .finished (.refreshed ⟨10, "u", none, none, none⟩ "b" 101),
            .sessionAccess 10 none (some "old")]))
    (loggingIn 0 ++ [.write 0, .commit 0] ++ resetLookUp 1
      ++ [.call (.refreshSession (some "a")), .read 2 { now := 2 },
        .read 2 { id := 2, text := "b", createdAt := 2 }, .write 2, .write 2, .commit 2,
        .call (.login (some "u") (some "old")), .read 3 {}, .read 3 {}]
      ++ resetUpTo 1 ++ [.read 3 {}]) oneUser_init (by decide)
  simp only [Bool.and_eq_true, decide_eq_true_eq, Option.any_eq_true] at hp
  obtain ⟨⟨⟨hi, hj⟩, horderly⟩, t, hstep, ⟨hhash, hu⟩, hpcs⟩ := hp
  have hs : (machine comparing).Reachable orderly s :=
    ⟨s₀, hs₀, hrun.mono fun _ _ h => Bool.and_eq_true_iff.mp h⟩
  refine ⟨t, hs.run (.single horderly hstep), hhash, hpcs, ?_⟩
  exact password_reset_final hs hj horderly hstep (of_decide_eq_true hi) rfl .refl
    (of_decide_eq_true hu)

/-- **A login outlives the reset of its password**: it has compared the old hash before the reset
commits, and inserts its token after. -/
theorem old_session_live : ∃ t, (machine comparing).Reachable (fun s l => salted s l) t
    ∧ t.db.passwordHash? 10 = some "new"
    ∧ t.calls = [⟨.finished (.session loginToken (some "old")), 0⟩, ⟨.finished .returned, 0⟩]
    ∧ ∃ k ∈ t.db.refreshTokens, k.familyId = 7 ∧ k.Live 5 := by
  obtain ⟨t, ht, hp⟩ := (machine comparing).exists_reachable_guarded (s := oneUser)
    (p := salted) (q := fun t => decide (t.db.passwordHash? 10 = some "new")
      && decide (t.calls = [⟨.finished (.session loginToken (some "old")), 0⟩,
        ⟨.finished .returned, 0⟩]) && liveAt 5 7 t.db)
    (loggingIn 0 ++ resetLookUp 1 ++ resetUpTo 1
      ++ [.commit 1, .write 0, .commit 0])
    oneUser_init (by decide)
  simp only [Bool.and_eq_true, decide_eq_true_eq] at hp
  obtain ⟨⟨hhash, hcalls⟩, hlive⟩ := hp
  exact ⟨t, ht, hhash, hcalls, liveAt_iff.mp hlive⟩

end ResourceHive.Sessions
