import ResourceHive.Sessions.Revocation

/-!
# Sessions/ResetTokens — password reset tokens are single use

`AuthService.requestPasswordReset` among the calls of the service, and `resetPassword` with a
snapshot of its own for each of its statements.  Reset tokens are never unused again and refresh
tokens never unrevoked (`Keeps`), so a reset that commits has used every token that was open when it
began, and has revoked every session (`reset_tokens_single_use`).
-/

namespace ResourceHive.Sessions.ResetTokens

/-! ## The calls -/

/-- Where a call is. -/
inductive Point
  /-- In one of the other calls, or in `resetPassword` up to its transaction. -/
  | auth (p : Sessions.Point)
  /-- The email as the service has trimmed and lowercased it. -/
  | requestPasswordReset (email : String)
  | requestRecent (user : User)
  | requestTransaction (user : User) (token : String) (now : Timestamp)
  | requesting (userId : Uuid) (ids : List Uuid) (now : Timestamp) (token : PasswordResetToken)
  | requested
  /-- In the transaction of `resetPassword`, which reads its own time, before the statements that
  update the user's other reset tokens and his refresh tokens. -/
  | resetTokens (stored : PasswordResetToken) (passwordHash : String) (databaseNow : Timestamp)
  | resetSessions (stored : PasswordResetToken) (passwordHash : String) (databaseNow : Timestamp)
      (resetIds : List Uuid)
  deriving DecidableEq

inductive Statement
  | auth (w : Write)
  | create (token : PasswordResetToken)

/-- **One statement.** -/
def Statement.exec : Statement → Database → Option Database
  | .auth w, db => w.exec db
  | .create token, db =>
    if (db.user? token.userId).isSome then
      (db.passwordResetTokens.insert token).map fun passwordResetTokens =>
        { db with passwordResetTokens }
    else none

/-- The ids of a user's unused, unexpired reset tokens. -/
def openTokens (db : Database) (userId : Uuid) (now : Timestamp) : List Uuid :=
  (db.passwordResetTokens.rows.filter fun t => decide (t.userId = userId) && t.usedAt.isNone
    && decide (now < t.expiresAt)).map (·.id)

/-- `PASSWORD_RESET_REQUEST_COOLDOWN_MS`. -/
def requestCooldownMs : ℤ := 60 * 1000

/-- **`requestPasswordReset`**, after its look-up. -/
def requestPasswordReset (user : Option User) : Point :=
  match user with
  | none => .requested
  | some user =>
    if user.status ≠ .active ∨ user.emailVerifiedAt.isNone then .requested else .requestRecent user

/-- The new token. -/
def newToken (K : Crypto) (lifetimeMs : ℤ) (userId : Uuid) (token : String) (now : Timestamp)
    (x : Reading) : PasswordResetToken where
  id := x.id
  userId := userId
  tokenHash := K.hashToken token
  expiresAt := now + lifetimeMs
  createdAt := x.createdAt

/-- **The reads of each call.** -/
def Point.read (K : Crypto) (lifetimeMs : ℤ) (db : Database) (x : Reading) : Point → Option Point
  | .auth (.resetTransaction stored) => some (.resetTokens stored x.text x.now)
  | .auth p => (p.read K db x).map .auth
  | .requestPasswordReset email =>
    some (ResetTokens.requestPasswordReset (db.users.find? (·.email = email)))
  | .requestRecent user =>
    let mostRecent := ((db.passwordResetTokens.rows.filter (·.userId = user.id)).map
      (·.createdAt)).max?
    some <|
      if mostRecent.any fun createdAt => decide (x.now < createdAt + requestCooldownMs) then
        .requested
      else .requestTransaction user x.text x.now
  | .requestTransaction user token now =>
    some (.requesting user.id (openTokens db user.id now) now
      (newToken K lifetimeMs user.id token now x))
  | .resetTokens stored passwordHash databaseNow =>
    some (.resetSessions stored passwordHash databaseNow (openTokens db stored.userId databaseNow))
  | .resetSessions stored passwordHash databaseNow resetIds =>
    some (.auth (.resetting stored passwordHash resetIds
      ⟨.user stored.userId, databaseNow, (Scope.user stored.userId).snapshot db⟩))
  | .requesting _ _ _ _ | .requested => none

/-- The calls of the authentication service; the history is of the tokens that were redeemed. -/
def code (K : Crypto) (lifetimeMs : ℤ) : Code Database Point Statement Reading Outside Uuid where
  entry
    | .auth p => (Sessions.code K).entry p
    | .requestPasswordReset _ => true
    | _ => false
  read db p x := p.read K lifetimeMs db x
  writes
    | .auth p => ((Sessions.code K).writes p).map .auth
    | .requesting userId ids now token => [.auth (.claimResets userId ids now), .create token]
    | _ => []
  exec := Statement.exec
  committed
    | .auth p => .auth ((Sessions.code K).committed p)
    | .requesting _ _ _ _ => .requested
    | p => p
  rolledBack
    | .auth p => .auth ((Sessions.code K).rolledBack p)
    | .requested => .requested
    | _ => .auth (.failed none)
  emits
    | .auth (.resetting stored _ _ _) => [stored.id]
    | _ => []
  outside := (Sessions.code K).outside

/-- The machine of the service, from any database. -/
def machine (K : Crypto) (lifetimeMs : ℤ) :
    Machine (Sessions Database Point Uuid) (Label Point Reading Outside) :=
  (code K lifetimeMs).machine fun _ => True

/-! ## What every step keeps -/

/-- The columns of a reset token no update touches. -/
def identity (k : PasswordResetToken) : Uuid × Uuid × Timestamp := (k.id, k.userId, k.expiresAt)

theorem identity_eq {k k' : PasswordResetToken} (h : identity k' = identity k) :
    k'.id = k.id ∧ k'.userId = k.userId ∧ k'.expiresAt = k.expiresAt := by
  simpa [identity] using h

/-- The same reset token, later: used if it was. -/
def LaterReset (k k' : PasswordResetToken) : Prop :=
  identity k' = identity k ∧ (k.usedAt.isSome → k'.usedAt.isSome)

/-- The same refresh token, later: revoked if it was. -/
def LaterRefresh (k k' : RefreshToken) : Prop :=
  k'.identity = k.identity ∧ (k.revokedAt.isSome → k'.revokedAt.isSome)

theorem LaterReset.refl (k : PasswordResetToken) : LaterReset k k := ⟨rfl, id⟩

theorem LaterRefresh.refl (k : RefreshToken) : LaterRefresh k k := ⟨rfl, id⟩

/-- **What is used stays used, and what is revoked stays revoked.** -/
structure Keeps (db db' : Database) : Prop where
  resets : ∀ k ∈ db.passwordResetTokens, ∃ k' ∈ db'.passwordResetTokens, LaterReset k k'
  refreshes : ∀ k ∈ db.refreshTokens, ∃ k' ∈ db'.refreshTokens, LaterRefresh k k'

variable {db db' db'' : Database}

theorem Keeps.refl (db : Database) : Keeps db db where
  resets k hk := ⟨k, hk, .refl k⟩
  refreshes k hk := ⟨k, hk, .refl k⟩

theorem Keeps.trans (h : Keeps db db') (h' : Keeps db' db'') : Keeps db db'' where
  resets k hk := by
    obtain ⟨k', hk', hid, hused⟩ := h.resets k hk
    obtain ⟨k'', hk'', hid', hused'⟩ := h'.resets k' hk'
    exact ⟨k'', hk'', hid'.trans hid, fun h => hused' (hused h)⟩
  refreshes k hk := by
    obtain ⟨k', hk', hid, hrevoked⟩ := h.refreshes k hk
    obtain ⟨k'', hk'', hid', hrevoked'⟩ := h'.refreshes k' hk'
    exact ⟨k'', hk'', hid'.trans hid, fun h => hrevoked' (hrevoked h)⟩

/-- A change of the reset tokens alone. -/
theorem Keeps.of_resets (hrefresh : db'.refreshTokens = db.refreshTokens)
    (h : ∀ k ∈ db.passwordResetTokens, ∃ k' ∈ db'.passwordResetTokens, LaterReset k k') :
    Keeps db db' where
  resets := h
  refreshes k hk := ⟨k, hrefresh ▸ hk, .refl k⟩

/-- A change of the refresh tokens alone. -/
theorem Keeps.of_refreshes (hresets : db'.passwordResetTokens = db.passwordResetTokens)
    (h : ∀ k ∈ db.refreshTokens, ∃ k' ∈ db'.refreshTokens, LaterRefresh k k') : Keeps db db' where
  resets k hk := ⟨k, hresets ▸ hk, .refl k⟩
  refreshes := h

/-- A change of neither. -/
theorem Keeps.of_eq (hresets : db'.passwordResetTokens = db.passwordResetTokens)
    (hrefresh : db'.refreshTokens = db.refreshTokens) : Keeps db db' :=
  .of_resets hrefresh fun k hk => ⟨k, hresets ▸ hk, .refl k⟩

theorem keeps_write {w : Write} (h : w.exec db = some db') : Keeps db db' := by
  cases w with
  | claim id now =>
    simp only [Write.exec, Option.ite_none_right_eq_some, Option.map_eq_some_iff] at h
    obtain ⟨-, ts, hts, rfl⟩ := h
    exact .of_refreshes rfl fun _ => Table.exists_mem_update hts .refl fun _ => ⟨rfl, fun h => h⟩
  | create token | start token =>
    simp only [Write.exec, Option.ite_none_right_eq_some, Option.map_eq_some_iff] at h
    obtain ⟨-, ts, hts, rfl⟩ := h
    exact .of_refreshes rfl fun k hk => ⟨k, (Table.mem_insert hts).mpr (.inl hk), .refl k⟩
  | revoke r =>
    obtain ⟨ts, hts, rfl⟩ := Option.map_eq_some_iff.mp h
    exact .of_refreshes rfl fun _ => Table.exists_mem_update hts .refl fun _ => ⟨rfl, fun _ => rfl⟩
  | switch familyId ids rootOrganizationId =>
    obtain ⟨ts, hts, rfl⟩ := Option.map_eq_some_iff.mp h
    exact .of_refreshes rfl fun _ => Table.exists_mem_update hts .refl fun _ => ⟨rfl, fun h => h⟩
  | claimReset id now =>
    simp only [Write.exec, Option.ite_none_right_eq_some, Option.map_eq_some_iff] at h
    obtain ⟨-, ts, hts, rfl⟩ := h
    exact .of_resets rfl fun _ => Table.exists_mem_update hts .refl fun _ => ⟨rfl, fun _ => rfl⟩
  | updatePassword userId passwordHash =>
    simp only [Write.exec, Option.ite_none_right_eq_some, Option.some.injEq] at h
    obtain ⟨-, rfl⟩ := h
    exact .of_eq rfl rfl
  | claimResets userId ids now =>
    obtain ⟨ts, hts, rfl⟩ := Option.map_eq_some_iff.mp h
    exact .of_resets rfl fun _ => Table.exists_mem_update hts .refl fun _ => ⟨rfl, fun _ => rfl⟩

theorem keeps_exec {w : Statement} (h : w.exec db = some db') : Keeps db db' := by
  cases w with
  | auth w => exact keeps_write h
  | create token =>
    simp only [Statement.exec, Option.ite_none_right_eq_some, Option.map_eq_some_iff] at h
    obtain ⟨-, ts, hts, rfl⟩ := h
    exact .of_resets rfl fun k hk => ⟨k, (Table.mem_insert hts).mpr (.inl hk), .refl k⟩

variable {K : Crypto} {lifetimeMs : ℤ} {s t : Sessions Database Point Uuid}
  {l : Label Point Reading Outside}

theorem keeps_replay {ws : List Statement} (h : (code K lifetimeMs).replay ws db = some db') :
    Keeps db db' := by
  induction ws generalizing db with
  | nil =>
    obtain rfl : db = db' := Option.some.inj h
    exact .refl db
  | cons w ws ih =>
    obtain ⟨db₁, hw, hrest⟩ := Option.bind_eq_some_iff.mp h
    exact (keeps_exec hw).trans (ih hrest)

theorem keeps_step (h : (code K lifetimeMs).step s l = some t) : Keeps s.db t.db := by
  cases Code.step_cases h with
  | call | read | write | rollback => exact .refl _
  | commit hc hpos hall hrep => exact keeps_replay hrep
  | @outside x db hx =>
    cases x with
    | users | directory =>
      obtain rfl := Option.some.inj hx
      exact .of_eq rfl rfl
    | requestReset token =>
      obtain ⟨ts, hts, rfl⟩ := Option.map_eq_some_iff.mp hx
      exact .of_resets rfl fun k hk => ⟨k, (Table.mem_insert hts).mpr (.inl hk), .refl k⟩

/-- **Over a run.** -/
theorem keeps_run {ok : Sessions Database Point Uuid → Label Point Reading Outside → Prop}
    (h : (machine K lifetimeMs).Run ok s t) : Keeps s.db t.db := by
  induction h with
  | refl => exact .refl _
  | tail _ _ hstep ih => exact ih.trans (keeps_step hstep)

/-- The reset token is used. -/
def Used (id : Uuid) (db : Database) : Prop :=
  ∃ k ∈ db.passwordResetTokens, k.id = id ∧ k.usedAt.isSome

/-- The refresh token is revoked. -/
def Revoked (id : Uuid) (db : Database) : Prop :=
  ∃ k ∈ db.refreshTokens, k.id = id ∧ k.revokedAt.isSome

variable {id : Uuid}

theorem Used.mono (h : Used id db) (hkeeps : Keeps db db') : Used id db' := by
  obtain ⟨k, hk, rfl, hused⟩ := h
  obtain ⟨k', hk', hid, hlater⟩ := hkeeps.resets k hk
  exact ⟨k', hk', (identity_eq hid).1, hlater hused⟩

theorem Revoked.mono (h : Revoked id db) (hkeeps : Keeps db db') : Revoked id db' := by
  obtain ⟨k, hk, rfl, hrevoked⟩ := h
  obtain ⟨k', hk', hid, hlater⟩ := hkeeps.refreshes k hk
  exact ⟨k', hk', (RefreshToken.identity_eq hid).1, hlater hrevoked⟩

/-! ## What a reset's commit does -/

theorem used_claimReset {now : Timestamp} (h : (Write.claimReset id now).exec db = some db') :
    ¬ Used id db ∧ Used id db' := by
  simp only [Write.exec, Option.ite_none_right_eq_some, Option.map_eq_some_iff, List.any_eq_true,
    Bool.and_eq_true, decide_eq_true_eq, Option.isNone_iff_eq_none] at h
  obtain ⟨⟨k, hk, ⟨hid, hunused⟩, hlt⟩, ts, hts, rfl⟩ := h
  constructor
  · rintro ⟨k', hk', hid', hused⟩
    obtain rfl := db.passwordResetTokens.valid.1.eq hk' hk (hid'.trans hid.symm)
    rw [hunused] at hused
    cases hused
  · refine ⟨_, (Table.mem_update hts).mpr ⟨k, hk, rfl⟩, ?_⟩
    rw [if_pos (by simp [hid, hunused, hlt])]
    exact ⟨hid, rfl⟩

theorem used_claimResets {userId : Uuid} {ids : List Uuid} {now : Timestamp}
    (h : (Write.claimResets userId ids now).exec db = some db') {k : PasswordResetToken}
    (hk : k ∈ db.passwordResetTokens) (hid : k.id ∈ ids) (huser : k.userId = userId)
    (hlt : now < k.expiresAt) : Used k.id db' := by
  obtain ⟨ts, hts, rfl⟩ := Option.map_eq_some_iff.mp h
  refine ⟨_, (Table.mem_update hts).mpr ⟨k, hk, rfl⟩, ?_⟩
  cases hused : k.usedAt with
  | none =>
    rw [if_pos (by simp [hid, huser, hlt])]
    exact ⟨rfl, rfl⟩
  | some u =>
    rw [if_neg (by simp)]
    exact ⟨rfl, by rw [hused]; rfl⟩

theorem revoked_revoke {r : Revocation} (h : (Write.revoke r).exec db = some db') {k : RefreshToken}
    (hk : k ∈ db.refreshTokens) (hid : k.id ∈ r.ids) (hcovers : r.scope.covers k) :
    Revoked k.id db' := by
  obtain ⟨ts, hts, rfl⟩ := Option.map_eq_some_iff.mp h
  refine ⟨_, (Table.mem_update hts).mpr ⟨k, hk, rfl⟩, ?_⟩
  cases hrevoked : k.revokedAt with
  | none =>
    rw [if_pos (by simp [Revocation.hits, Scope.selects, hid, hcovers, hrevoked])]
    exact ⟨rfl, rfl⟩
  | some u =>
    rw [if_neg (by simp [Revocation.hits, Scope.selects, hrevoked])]
    exact ⟨rfl, by rw [hrevoked]; rfl⟩

/-- **The commit of a reset** uses its token, which was unused, and the tokens found with it, and
revokes the sessions found. -/
structure Redeemed (stored : PasswordResetToken) (ids : List Uuid) (r : Revocation)
    (db db' : Database) : Prop where
  unused : ¬ Used stored.id db
  used : Used stored.id db'
  others : ∀ k ∈ db.passwordResetTokens, k.id ∈ ids → k.userId = stored.userId →
    r.revokedAt < k.expiresAt → Used k.id db'
  sessions : ∀ k ∈ db.refreshTokens, k.id ∈ r.ids → r.scope.covers k → Revoked k.id db'

theorem replay_resetting {stored : PasswordResetToken} {passwordHash : String} {ids : List Uuid}
    {r : Revocation} (h : (code K lifetimeMs).replay
      ((code K lifetimeMs).writes (.auth (.resetting stored passwordHash ids r))) db = some db') :
    Redeemed stored ids r db db' := by
  simp only [code, Sessions.code, List.map_cons, List.map_nil, Code.replay_cons, Code.replay_nil,
    Statement.exec, Option.bind_eq_some_iff] at h
  obtain ⟨db₁, hclaim, db₂, hpassword, db₃, hresets, db₄, hrevoke, hlast⟩ := h
  obtain rfl : db₄ = db' := Option.some.inj hlast
  obtain ⟨hunused, hused⟩ := used_claimReset hclaim
  have hkeeps₂ := (keeps_write hclaim).trans (keeps_write hpassword)
  have hkeeps₃ := hkeeps₂.trans (keeps_write hresets)
  refine ⟨hunused, ?_, fun k hk hid huser hlt => ?_, fun k hk hid hcovers => ?_⟩
  · exact ((hused.mono (keeps_write hpassword)).mono (keeps_write hresets)).mono
      (keeps_write hrevoke)
  · obtain ⟨k', hk', hsame, -⟩ := hkeeps₂.resets k hk
    obtain ⟨hid', huser', hexpires⟩ := identity_eq hsame
    have hk'' := used_claimResets hresets hk' (hid' ▸ hid) (huser'.trans huser) (hexpires ▸ hlt)
    exact hid' ▸ hk''.mono (keeps_write hrevoke)
  · obtain ⟨k', hk', hsame, -⟩ := hkeeps₃.refreshes k hk
    obtain ⟨hid', huser', hfamily, -⟩ := RefreshToken.identity_eq hsame
    have hcovers' : r.scope.covers k' := by
      cases hscope : r.scope <;> simp_all [Scope.covers]
    exact hid' ▸ revoked_revoke hrevoke hk' (hid' ▸ hid) hcovers'

/-! ## Tokens that were redeemed -/

/-- **No token is redeemed twice**: those that were are used. -/
def Recorded (s : Sessions Database Point Uuid) : Prop :=
  s.history.Nodup ∧ ∀ id ∈ s.history, Used id s.db

/-- What a commit leaves in the history: the token it redeems. -/
theorem emits_cases {p : Point} : (code K lifetimeMs).emits p = []
    ∨ ∃ stored passwordHash ids r, p = .auth (.resetting stored passwordHash ids r)
      ∧ (code K lifetimeMs).emits p = [stored.id] := by
  rcases p with ⟨p⟩ | _ | _ | _ | _ | _ | _ | _
  · cases p with
    | resetting stored passwordHash ids r => exact .inr ⟨stored, passwordHash, ids, r, rfl, rfl⟩
    | _ => exact .inl rfl
  all_goals exact .inl rfl

/-- **A step redeems no used token.** -/
theorem history_step (h : (code K lifetimeMs).step s l = some t) : t.history = s.history
    ∨ ∃ id, t.history = s.history ++ [id] ∧ ¬ Used id s.db ∧ Used id t.db := by
  cases Code.step_cases h with
  | call | read | write | rollback | outside => exact .inl rfl
  | @commit i c db hc hpos hall hrep =>
    rcases emits_cases (p := c.pc) with hnone | ⟨stored, passwordHash, ids, r, hpc, hemits⟩
    · exact .inl (show s.history ++ _ = _ by rw [hnone, List.append_nil])
    · rw [hpc] at hrep hemits
      have hredeemed := replay_resetting hrep
      exact .inr ⟨stored.id, show s.history ++ (code K lifetimeMs).emits c.pc = _ by rw [hpc, hemits],
        hredeemed.unused, hredeemed.used⟩

theorem Recorded.step (hs : Recorded s) (h : (code K lifetimeMs).step s l = some t) :
    Recorded t := by
  have hkeeps := keeps_step h
  rcases history_step h with hsame | ⟨id, happend, hunused, hused⟩
  · exact ⟨hsame ▸ hs.1, fun id hid => (hs.2 id (hsame ▸ hid)).mono hkeeps⟩
  · rw [Recorded, happend]
    refine ⟨List.nodup_append.mpr ⟨hs.1, List.nodup_singleton _, ?_⟩, fun id' hid' => ?_⟩
    · rintro a ha b hb rfl
      obtain rfl := List.mem_singleton.mp hb
      exact hunused (hs.2 _ ha)
    · rcases List.mem_append.mp hid' with hid' | hid'
      · exact (hs.2 id' hid').mono hkeeps
      · rwa [List.mem_singleton.mp hid']

/-- **A used token is not redeemed any more.** -/
theorem count_run (hused : Used id s.db) (h : (machine K lifetimeMs).Run Machine.free s t) :
    t.history.count id = s.history.count id := by
  induction h with
  | refl => rfl
  | @tail t u l hrun _ hstep ih =>
    rcases history_step hstep with hsame | ⟨id', happend, hunused, -⟩
    · rw [hsame, ih]
    · rw [happend, List.count_append, ih, Nat.add_eq_left, List.count_eq_zero, List.mem_singleton]
      rintro rfl
      exact hunused (hused.mono (keeps_run hrun))

/-! ## A reset that goes through -/

section Transaction

variable {db₀ : Database} {stored : PasswordResetToken} {now : Timestamp}

/-- The open tokens there were, as far as they are not used by now, are among those found. -/
def FindsResets (db₀ : Database) (stored : PasswordResetToken) (now : Timestamp) (db : Database)
    (ids : List Uuid) : Prop :=
  ∀ k ∈ db₀.passwordResetTokens, k.userId = stored.userId → k.usedAt = none → now < k.expiresAt →
    k.id ∈ ids ∨ Used k.id db

/-- …and so are the refresh tokens there were. -/
def FindsRefreshes (db₀ : Database) (stored : PasswordResetToken) (db : Database)
    (ids : List Uuid) : Prop :=
  ∀ k ∈ db₀.refreshTokens, k.userId = stored.userId → k.id ∈ ids ∨ Revoked k.id db

/-- **What a transaction of a reset knows** that began on `db₀` at `now`. -/
def Tracks (db₀ : Database) (stored : PasswordResetToken) (now : Timestamp) (db : Database) :
    Point → Prop
  | .resetTokens st _ databaseNow => st = stored ∧ databaseNow = now
  | .resetSessions st _ databaseNow ids =>
    st = stored ∧ databaseNow = now ∧ FindsResets db₀ stored now db ids
  | .auth (.resetting st _ ids r) => st = stored ∧ r.scope = .user stored.userId
      ∧ r.revokedAt = now ∧ FindsResets db₀ stored now db ids ∧ FindsRefreshes db₀ stored db r.ids
  | .auth (.finished _) | .auth (.failed _) => True
  | _ => False

theorem Tracks.mono {p : Point} (h : Tracks db₀ stored now db p) (hkeeps : Keeps db db') :
    Tracks db₀ stored now db' p := by
  unfold Tracks at h ⊢
  have hresets {ids : List Uuid} (hfinds : FindsResets db₀ stored now db ids) :
      FindsResets db₀ stored now db' ids := fun k hk hu hunused hlt =>
    (hfinds k hk hu hunused hlt).imp_right fun hused => hused.mono hkeeps
  split at h
  · exact h
  · exact ⟨h.1, h.2.1, hresets h.2.2⟩
  · exact ⟨h.1, h.2.1, h.2.2.1, hresets h.2.2.2.1, fun k hk hu =>
      (h.2.2.2.2 k hk hu).imp_right fun hrevoked => hrevoked.mono hkeeps⟩
  · trivial
  · trivial
  · exact h

/-- A snapshot has the open tokens there were. -/
theorem findsResets_openTokens (hkeeps : Keeps db₀ db) :
    FindsResets db₀ stored now db (openTokens db stored.userId now) := by
  intro k hk huser hunused hlt
  obtain ⟨k', hk', hsame, -⟩ := hkeeps.resets k hk
  obtain ⟨hid, huser', hexpires⟩ := identity_eq hsame
  rw [← hid]
  cases hused : k'.usedAt with
  | none =>
    refine .inl (List.mem_map_of_mem (List.mem_filter.mpr ⟨hk', ?_⟩))
    simp [huser', huser, hused, hexpires, hlt]
  | some u => exact .inr ⟨k', hk', rfl, by rw [hused]; rfl⟩

theorem findsRefreshes_snapshot (hkeeps : Keeps db₀ db) :
    FindsRefreshes db₀ stored db ((Scope.user stored.userId).snapshot db) := by
  intro k hk huser
  obtain ⟨k', hk', hsame, -⟩ := hkeeps.refreshes k hk
  obtain ⟨hid, huser', -⟩ := RefreshToken.identity_eq hsame
  rw [← hid]
  cases hrevoked : k'.revokedAt with
  | none =>
    refine .inl (List.mem_map_of_mem (List.mem_filter.mpr ⟨hk', ?_⟩))
    simp [Scope.selects, Scope.covers, huser', huser, hrevoked]
  | some u => exact .inr ⟨k', hk', rfl, by rw [hrevoked]; rfl⟩

theorem Tracks.read {p p' : Point} {x : Reading} (hp : Tracks db₀ stored now db p)
    (hkeeps : Keeps db₀ db) (h : p.read K lifetimeMs db x = some p') :
    Tracks db₀ stored now db p' := by
  unfold Tracks at hp
  split at hp
  · obtain rfl := Option.some.inj h
    obtain ⟨rfl, rfl⟩ := hp
    exact ⟨rfl, rfl, findsResets_openTokens hkeeps⟩
  · obtain rfl := Option.some.inj h
    obtain ⟨rfl, rfl, hfinds⟩ := hp
    exact ⟨rfl, rfl, rfl, hfinds, findsRefreshes_snapshot hkeeps⟩
  · cases h
  · cases h
  · cases h
  · exact hp.elim

variable (K lifetimeMs) in
theorem Tracks.rolledBack {p : Point} (hp : Tracks db₀ stored now db p) :
    Tracks db₀ stored now db ((code K lifetimeMs).rolledBack p) := by
  unfold Tracks at hp
  split at hp
  · trivial
  · trivial
  · trivial
  · trivial
  · trivial
  · exact hp.elim

theorem Tracks.committed {p : Point} (hp : Tracks db₀ stored now db p)
    (hne : (code K lifetimeMs).writes p ≠ []) :
    Tracks db₀ stored now db' ((code K lifetimeMs).committed p) := by
  unfold Tracks at hp
  split at hp
  · exact absurd rfl hne
  · exact absurd rfl hne
  · trivial
  · exact absurd rfl hne
  · exact absurd rfl hne
  · exact hp.elim

/-- **Over a run of any calls**, the call with the transaction among them. -/
theorem Tracks.run {i : ℕ} {c : Session Point} (hkeeps : Keeps db₀ s.db)
    (hc : s.calls[i]? = some c) (htracks : Tracks db₀ stored now s.db c.pc)
    (h : (machine K lifetimeMs).Run Machine.free s t) :
    ∃ d, t.calls[i]? = some d ∧ Tracks db₀ stored now t.db d.pc := by
  induction h with
  | refl => exact ⟨c, hc, htracks⟩
  | @tail t u l hrun _ hstep ih =>
    obtain ⟨d, hd, hat⟩ := ih
    have hsince := hkeeps.trans (keeps_run hrun)
    cases Code.call_cases hd hstep with
    | other _ hu => exact ⟨d, hu, hat.mono (keeps_step hstep)⟩
    | read hread hdb hu => exact ⟨_, hu, hdb ▸ hat.read hsince hread⟩
    | write _ hdb hu => exact ⟨_, hu, hdb ▸ hat⟩
    | commit hne _ hu => exact ⟨_, hu, hat.committed hne⟩
    | rollback hdb hu =>
      refine ⟨_, hu, ?_⟩
      rw [hdb]
      exact hat.rolledBack K lifetimeMs

/-- **The commit that ends it.** -/
theorem Tracks.commit {i : ℕ} {c : Session Point} (hkeeps : Keeps db₀ s.db)
    (hc : s.calls[i]? = some c) (hat : Tracks db₀ stored now s.db c.pc)
    (h : (code K lifetimeMs).step s (.commit i) = some t) :
    t.history = s.history ++ [stored.id]
      ∧ (∀ k ∈ db₀.passwordResetTokens, k.userId = stored.userId → k.usedAt = none →
          now < k.expiresAt → Used k.id t.db)
      ∧ ∀ k ∈ db₀.refreshTokens, k.userId = stored.userId → Revoked k.id t.db := by
  have hlater := keeps_step h
  cases Code.step_cases h with
  | @commit _ c' db hc' hpos hall hrep =>
    obtain rfl := Option.some.inj (hc.symm.trans hc')
    have hne := List.ne_nil_of_length_pos (hall ▸ hpos)
    generalize hpc : c.pc = p at hat hrep hne
    unfold Tracks at hat
    split at hat
    · exact absurd rfl hne
    · exact absurd rfl hne
    · next passwordHash ids r =>
      obtain ⟨rfl, hscope, rfl, hresets, hrefreshes⟩ := hat
      have hredeemed := replay_resetting hrep
      refine ⟨rfl, fun k hk huser hunused hlt => ?_, fun k hk huser => ?_⟩
      · rcases hresets k hk huser hunused hlt with hfound | hused
        · obtain ⟨k', hk', hsame, -⟩ := hkeeps.resets k hk
          obtain ⟨hid, huser', hexpires⟩ := identity_eq hsame
          exact hid ▸ hredeemed.others k' hk' (hid ▸ hfound) (huser'.trans huser) (hexpires ▸ hlt)
        · exact hused.mono hlater
      · rcases hrefreshes k hk huser with hfound | hrevoked
        · obtain ⟨k', hk', hsame, -⟩ := hkeeps.refreshes k hk
          obtain ⟨hid, huser', -⟩ := RefreshToken.identity_eq hsame
          refine hid ▸ hredeemed.sessions k' hk' (hid ▸ hfound) ?_
          rw [hscope]
          exact decide_eq_true (huser'.trans huser)
        · exact hrevoked.mono hlater
    · exact absurd rfl hne
    · exact absurd rfl hne
    · exact hat.elim

end Transaction

/-! ## A reset that does not -/

/-- A call of `resetPassword` that has not gone through. -/
def Point.resets : Point → Bool
  | .auth (.resetPassword _ _) | .auth (.resetTransaction _) | .resetTokens _ _ _
  | .resetSessions _ _ _ _ | .auth (.resetting _ _ _ _) | .auth (.finished (.threw _))
  | .auth (.failed _) => true
  | _ => false

theorem resets_read {p p' : Point} {x : Reading} (hp : p.resets)
    (h : p.read K lifetimeMs db x = some p') : p'.resets := by
  unfold Point.resets at hp
  split at hp
  · simp only [Point.read, Sessions.Point.read, Option.map_some, Option.some.injEq] at h
    subst h
    simp only [resetPassword]
    split
    · rfl
    · split_ifs <;> rfl
  · obtain rfl := Option.some.inj h
    rfl
  · obtain rfl := Option.some.inj h
    rfl
  · obtain rfl := Option.some.inj h
    rfl
  · cases h
  · cases h
  · cases h
  · cases hp

variable (K lifetimeMs) in
theorem resets_rolledBack {p : Point} (hp : p.resets) :
    ((code K lifetimeMs).rolledBack p).resets := by
  unfold Point.resets at hp
  split at hp
  · rfl
  · rfl
  · rfl
  · rfl
  · rfl
  · rfl
  · rfl
  · cases hp

/-- Its commit is its success. -/
theorem resets_committed {p : Point} (hp : p.resets) (hne : (code K lifetimeMs).writes p ≠ []) :
    (code K lifetimeMs).committed p = .auth (.finished .returned) := by
  unfold Point.resets at hp
  split at hp
  · exact absurd rfl hne
  · exact absurd rfl hne
  · exact absurd rfl hne
  · exact absurd rfl hne
  · rfl
  · exact absurd rfl hne
  · exact absurd rfl hne
  · cases hp

/-- A call that has returned has no step left. -/
theorem returned_step {i : ℕ} {c : Session Point} (hc : s.calls[i]? = some c)
    (hp : c.pc = .auth (.finished .returned)) (h : (code K lifetimeMs).step s l = some t) :
    ∃ d, t.calls[i]? = some d ∧ d.pc = .auth (.finished .returned) := by
  cases Code.call_cases hc h with
  | other _ ht => exact ⟨c, ht, hp⟩
  | read hread =>
    rw [hp] at hread
    cases hread
  | write hlt =>
    rw [hp] at hlt
    exact absurd hlt (Nat.not_lt_zero _)
  | commit hne =>
    rw [hp] at hne
    exact absurd rfl hne
  | rollback _ ht =>
    rw [hp] at ht
    exact ⟨_, ht, rfl⟩

/-- **As long as it has not returned**, no step of the call has changed the database. -/
theorem unchanged_run {i : ℕ} {c : Session Point} (hc : s.calls[i]? = some c) (hp : c.pc.resets)
    (h : (machine K lifetimeMs).Run Machine.free s t)
    (hnot : ∀ d, t.calls[i]? = some d → d.pc ≠ .auth (.finished .returned)) :
    (machine K lifetimeMs).Run
        (fun u l => l.of = some i → ∀ v, (machine K lifetimeMs).step u l = some v → v.db = u.db) s t
      ∧ ∃ d, t.calls[i]? = some d ∧ d.pc.resets := by
  induction h with
  | refl => exact ⟨.refl, c, hc, hp⟩
  | @tail t u l _ _ hstep ih =>
    obtain ⟨hrun, d, hd, hresets⟩ := ih fun d hd hreturned => by
      obtain ⟨d', hd', hreturned'⟩ := returned_step hd hreturned hstep
      exact hnot d' hd' hreturned'
    have hother (hl : l.of = some i → u.db = t.db) : (machine K lifetimeMs).Run _ s u :=
      hrun.tail (fun hof v hv => by
        obtain rfl := Option.some.inj (hstep.symm.trans hv)
        exact hl hof) hstep
    cases Code.call_cases hd hstep with
    | other hl hu => exact ⟨hother fun hof => absurd hof hl, d, hu, hresets⟩
    | read hread hdb hu => exact ⟨hother fun _ => hdb, _, hu, resets_read hresets hread⟩
    | write _ hdb hu => exact ⟨hother fun _ => hdb, _, hu, hresets⟩
    | commit hne _ hu => exact absurd (resets_committed hresets hne) (hnot _ hu)
    | rollback hdb hu => exact ⟨hother fun _ => hdb, _, hu, resets_rolledBack K lifetimeMs hresets⟩

/-! ## Single use -/

/-- **Reset tokens are single use.**  In any interleaving of the calls, no token is redeemed twice.
A reset that begins its transaction and commits it has redeemed its token; of the tokens that were
unused and unexpired when the transaction began none is redeemed after the commit, and every refresh
token of the user that was there is revoked.  A reset that has not gone through, failed or not, has
changed nothing with any of its steps. -/
theorem reset_tokens_single_use (hs : (machine K lifetimeMs).Reachable Machine.free s) :
    s.history.Nodup
      ∧ (∀ (i n : ℕ) (stored : PasswordResetToken) (x : Reading)
          (s₁ s₂ s₃ : Sessions Database Point Uuid),
          s.calls[i]? = some ⟨.auth (.resetTransaction stored), n⟩ →
          (machine K lifetimeMs).step s (.read i x) = some s₁ →
          (machine K lifetimeMs).Run Machine.free s₁ s₂ →
          (machine K lifetimeMs).step s₂ (.commit i) = some s₃ →
          s₃.history = s₂.history ++ [stored.id]
            ∧ (∀ k ∈ s.db.passwordResetTokens, k.userId = stored.userId → k.usedAt = none →
                x.now < k.expiresAt → ∀ t, (machine K lifetimeMs).Run Machine.free s₃ t →
                  t.history.count k.id = s₃.history.count k.id)
            ∧ ∀ k ∈ s.db.refreshTokens, k.userId = stored.userId →
                ∃ k' ∈ s₃.db.refreshTokens, k'.id = k.id ∧ k'.revokedAt.isSome)
      ∧ ∀ (i n : ℕ) (token password : String) (t : Sessions Database Point Uuid),
          s.calls[i]? = some ⟨.auth (.resetPassword token password), n⟩ →
          (machine K lifetimeMs).Run Machine.free s t →
          (∀ d, t.calls[i]? = some d → d.pc ≠ .auth (.finished .returned)) →
          (machine K lifetimeMs).Run (fun u l => l.of = some i → ∀ v,
            (machine K lifetimeMs).step u l = some v → v.db = u.db) s t := by
  refine ⟨?_, fun i n stored x s₁ s₂ s₃ hc hread hrun hcommit => ?_,
    fun i n token password t hc hrun hnot => (unchanged_run hc rfl hrun hnot).1⟩
  · have hrecorded : Recorded s := hs.invariant
      (fun {s} ⟨_, hhistory, _⟩ => by simp [Recorded, hhistory]) fun ht _ hstep => ht.step hstep
    exact hrecorded.1
  · have hstep : (code K lifetimeMs).step s (.read i x) = some s₁ := hread
    cases Code.call_cases hc hstep with
    | other hl => exact absurd rfl hl
    | read h hdb hc₁ =>
      obtain rfl := Option.some.inj h
      have hkeeps : Keeps s.db s₁.db := keeps_step hstep
      obtain ⟨d, hd, hat⟩ := Tracks.run hkeeps hc₁ ⟨rfl, rfl⟩ hrun
      obtain ⟨hhistory, hused, hrevoked⟩ :=
        Tracks.commit (hkeeps.trans (keeps_run hrun)) hd hat hcommit
      exact ⟨hhistory, fun k hk huser hunused hlt t ht =>
        count_run (hused k hk huser hunused hlt) ht, hrevoked⟩

/-! ## Two tokens -/

/-- A verified user with two reset tokens and a session. -/
def twoTokens : Sessions Database Point Uuid where
  db :=
    { users := [{ id := 10, email := "u", emailVerifiedAt := some 0, passwordHash := some "old" }]
      organizations := []
      memberships := []
      refreshTokens := ⟨[{ id := 1, userId := 10, familyId := 7, tokenHash := "a",
                           expiresAt := 200, createdAt := 0 }], by decide⟩
      passwordResetTokens :=
        ⟨[{ id := 5, userId := 10, tokenHash := "x", expiresAt := 100, createdAt := 0 },
          { id := 6, userId := 10, tokenHash := "y", expiresAt := 100, createdAt := 0 }],
          by decide⟩ }
  history := []
  calls := []

/-- Of two resets at the same time, each with its own token, the first to commit uses the other's
token up and ends the session, and the other is rolled back. -/
theorem reset_tokens_single_use_of_two : ∃ s t, (machine plain 100).Reachable Machine.free s
    ∧ s.history = [5] ∧ (∃ k ∈ s.db.refreshTokens, k.id = 1 ∧ k.revokedAt.isSome)
    ∧ (machine plain 100).Run Machine.free s t ∧ t.history.count 6 = 0
    ∧ t.calls.map (·.pc)
      = [.auth (.finished .returned), .auth (.failed (some .invalidPasswordReset))] := by
  let stored : PasswordResetToken :=
    { id := 5, userId := 10, tokenHash := "x", expiresAt := 100, createdAt := 0 }
  let stored' : PasswordResetToken := { stored with id := 6, tokenHash := "y" }
  obtain ⟨s, hs, hp⟩ := (machine plain 100).exists_reachable (s := twoTokens)
    (p := fun s => decide (s.calls
        = [⟨.auth (.resetTransaction stored), 0⟩, ⟨.auth (.resetTransaction stored'), 0⟩])
      && decide (s.db.passwordResetTokens.rows = twoTokens.db.passwordResetTokens.rows)
      && decide (s.db.refreshTokens.rows = twoTokens.db.refreshTokens.rows)
      && ((machine plain 100).step s (.read 0 { now := 3, text := "new" })).any fun s₁ =>
        ((machine plain 100).exec s₁
            [.read 1 { now := 3, text := "newer" }, .read 0 {}, .read 1 {}, .read 0 {}, .read 1 {},
              .write 0, .write 0, .write 0, .write 0]).any fun s₂ =>
          ((machine plain 100).step s₂ (.commit 0)).any fun s₃ =>
            decide ((s₃ : Sessions Database Point Uuid).history = [5])
              && ((machine plain 100).exec s₃ [.rollback 1]).any fun t =>
                decide ((t : Sessions Database Point Uuid).calls.map (·.pc)
                  = [.auth (.finished .returned), .auth (.failed (some .invalidPasswordReset))]))
    [.call (.auth (.resetPassword "x" "new")), .call (.auth (.resetPassword "y" "newer")),
      .read 0 { now := 2 }, .read 1 { now := 2 }] ⟨trivial, rfl, rfl⟩ (by decide)
  simp only [Bool.and_eq_true, decide_eq_true_eq, Option.any_eq_true] at hp
  obtain ⟨⟨⟨hcalls, hresets⟩, hrefreshes⟩, s₁, hread, s₂, hmiddle, s₃, hcommit, hhistory, t, hback,
    hpcs⟩ := hp
  have hrun := (machine plain 100).run_of_exec _ hmiddle
  have hc : s.calls[0]? = some ⟨.auth (.resetTransaction stored), 0⟩ := by
    rw [hcalls]
    rfl
  obtain ⟨-, hother, hrevoked⟩ :=
    (reset_tokens_single_use hs).2.1 0 0 stored _ s₁ s₂ s₃ hc hread hrun hcommit
  have hlater := (machine plain 100).run_of_exec _ hback
  refine ⟨s₃, t, ((hs.run (.single trivial hread)).run hrun).run (.single trivial hcommit), hhistory,
    ?_, hlater, ?_, hpcs⟩
  · refine hrevoked ⟨1, 10, 7, none, "a", 200, none, none, 0⟩ ?_ rfl
    rw [← Table.mem_rows, hrefreshes]
    decide
  · rw [hother ⟨6, 10, "y", 100, none, 0⟩ ?_ rfl rfl (by decide) t hlater, hhistory]
    · rfl
    · rw [← Table.mem_rows, hresets]
      decide

end ResourceHive.Sessions.ResetTokens
