import ResourceHive.Sessions.RefreshTokens

/-!
# Sessions/Families — what the calls do to the tokens of a family

Nothing but a rotation adds a token to a family there is, and a rotation needs an open one; so a
family without open tokens has none ever after (`Dead.run`), and the rows that an update of the
family has found are all there are until a rotation commits (`Unrevoked.commit`).  A token is used by
its own rotation only (`Unused.commit`).
-/

namespace ResourceHive.Sessions

/-! ## Tokens keep their identity, and never come back to life -/

/-- The columns no update touches. -/
def RefreshToken.identity (t : RefreshToken) :
    Uuid × Uuid × Uuid × Timestamp × String × Timestamp :=
  (t.id, t.userId, t.familyId, t.expiresAt, t.tokenHash, t.createdAt)

theorem RefreshToken.identity_eq {t t' : RefreshToken} (h : t.identity = t'.identity) :
    t.id = t'.id ∧ t.userId = t'.userId ∧ t.familyId = t'.familyId ∧ t.expiresAt = t'.expiresAt
      ∧ t.tokenHash = t'.tokenHash ∧ t.createdAt = t'.createdAt := by
  simpa [identity] using h

/-- **Open**: neither used nor revoked. -/
def RefreshToken.Open (t : RefreshToken) : Prop := t.usedAt = none ∧ t.revokedAt = none

/-- **What any statement but an insert does**: every row stays, and what is used or revoked stays
so. -/
structure Ages (db db' : Database) : Prop where
  stays : ∀ t ∈ db.refreshTokens, ∃ t' ∈ db'.refreshTokens, t'.identity = t.identity
  came : ∀ t' ∈ db'.refreshTokens, ∃ t ∈ db.refreshTokens, t.identity = t'.identity
    ∧ (t'.usedAt = none → t.usedAt = none) ∧ (t'.revokedAt = none → t.revokedAt = none)

variable {db db' db'' : Database}

/-- A row that is open now was open before. -/
theorem Ages.opened (h : Ages db db') {t' : RefreshToken} (ht' : t' ∈ db'.refreshTokens) :
    ∃ t ∈ db.refreshTokens, t.identity = t'.identity ∧ (t'.Open → t.Open) := by
  obtain ⟨t, ht, hid, hused, hrevoked⟩ := h.came t' ht'
  exact ⟨t, ht, hid, fun hopen => ⟨hused hopen.1, hrevoked hopen.2⟩⟩

theorem Ages.of_eq (h : db'.refreshTokens = db.refreshTokens) : Ages db db' where
  stays t ht := ⟨t, h ▸ ht, rfl⟩
  came t ht := ⟨t, h ▸ ht, rfl, id, id⟩

theorem Ages.trans (h : Ages db db') (h' : Ages db' db'') : Ages db db'' where
  stays t ht := by
    obtain ⟨u, hu, htu⟩ := h.stays t ht
    obtain ⟨v, hv, huv⟩ := h'.stays u hu
    exact ⟨v, hv, huv.trans htu⟩
  came v hv := by
    obtain ⟨u, hu, huv, hused, hrevoked⟩ := h'.came v hv
    obtain ⟨t, ht, htu, hused', hrevoked'⟩ := h.came u hu
    exact ⟨t, ht, htu.trans huv, hused' ∘ hused, hrevoked' ∘ hrevoked⟩

theorem Ages.of_update {p : RefreshToken → Bool} {f : RefreshToken → RefreshToken}
    (h : db.refreshTokens.update p f = some db'.refreshTokens)
    (hid : ∀ t, (f t).identity = t.identity) (hused : ∀ t, (f t).usedAt = none → t.usedAt = none)
    (hrevoked : ∀ t, (f t).revokedAt = none → t.revokedAt = none) : Ages db db' where
  stays t ht := by
    refine ⟨_, (Table.mem_update h).mpr ⟨t, ht, rfl⟩, ?_⟩
    split
    · exact hid t
    · rfl
  came t' ht' := by
    obtain ⟨t, ht, rfl⟩ := (Table.mem_update h).mp ht'
    refine ⟨t, ht, ?_⟩
    split
    · exact ⟨(hid t).symm, hused t, hrevoked t⟩
    · exact ⟨rfl, id, id⟩

theorem exec_ages {w : Write} (hw : ∀ token, w ≠ .create token ∧ w ≠ .start token)
    (h : w.exec db = some db') : Ages db db' := by
  cases w with
  | claim id now =>
    simp only [Write.exec, Option.ite_none_right_eq_some, Option.map_eq_some_iff] at h
    obtain ⟨-, ts, hts, rfl⟩ := h
    exact .of_update hts (fun _ => rfl) (fun _ h => absurd h (Option.some_ne_none _))
      fun _ h => h
  | create token => exact absurd rfl (hw token).1
  | start token => exact absurd rfl (hw token).2
  | revoke r =>
    obtain ⟨ts, hts, rfl⟩ := Option.map_eq_some_iff.mp h
    exact .of_update hts (fun _ => rfl) (fun _ => id) fun _ h => absurd h (Option.some_ne_none _)
  | switch familyId ids rootOrganizationId =>
    obtain ⟨ts, hts, rfl⟩ := Option.map_eq_some_iff.mp h
    exact .of_update hts (fun _ => rfl) (fun _ => id) fun _ => id
  | claimReset id now =>
    simp only [Write.exec, Option.ite_none_right_eq_some, Option.map_eq_some_iff] at h
    obtain ⟨-, ts, -, rfl⟩ := h
    exact .of_eq rfl
  | updatePassword userId passwordHash =>
    simp only [Write.exec, Option.ite_none_right_eq_some, Option.some.injEq] at h
    obtain ⟨-, rfl⟩ := h
    exact .of_eq rfl
  | claimResets userId ids now =>
    obtain ⟨ts, -, rfl⟩ := Option.map_eq_some_iff.mp h
    exact .of_eq rfl

variable {K : Crypto}

theorem replay_ages {ws : List Write}
    (hws : ∀ w ∈ ws, ∀ token, w ≠ .create token ∧ w ≠ .start token)
    (h : (code K).replay ws db = some db') : Ages db db' := by
  induction ws generalizing db with
  | nil =>
    obtain rfl : db = db' := Option.some.inj h
    exact .of_eq rfl
  | cons w ws ih =>
    obtain ⟨db₁, hw, hrest⟩ := Option.bind_eq_some_iff.mp h
    exact (exec_ages (hws w List.mem_cons_self) hw).trans
      (ih (fun w' hw' => hws w' (List.mem_cons_of_mem w hw')) hrest)

/-! ## What the constraints accept -/

/-- An update of columns that no index is on is rejected by the CHECKs only. -/
theorem update_isSome_iff {p : RefreshToken → Bool} {g : RefreshToken → RefreshToken}
    (hid : ∀ t, (g t).id = t.id) (hhash : ∀ t, (g t).tokenHash = t.tokenHash) :
    (db.refreshTokens.update p g).isSome ↔ ∀ t ∈ db.refreshTokens, p t → (g t).Checks := by
  rw [Table.update, Table.replace_isSome]
  obtain ⟨huniqueId, huniqueHash, hchecks⟩ := db.refreshTokens.valid
  constructor
  · rintro ⟨-, -, hafter⟩ t ht hp
    have hrow := hafter (g t) (List.mem_map.mpr ⟨t, ht, by rw [if_pos hp]⟩)
    exact hrow
  · intro h
    refine ⟨huniqueId.map fun t => ?_, huniqueHash.map fun t => ?_, hchecks.update h⟩
    · split
      · exact hid t
      · rfl
    · split
      · exact hhash t
      · rfl

/-- A new row is accepted under a new id and a new hash. -/
theorem insert_isSome {T : Table RefreshToken RefreshToken.Constraints} {n : RefreshToken}
    (hid : ∀ t ∈ T, t.id ≠ n.id) (hhash : ∀ t ∈ T, t.tokenHash ≠ n.tokenHash) (hn : n.Checks) :
    (T.insert n).isSome := by
  rw [Table.insert, Table.replace_isSome]
  obtain ⟨huniqueId, huniqueHash, hchecks⟩ := T.valid
  refine ⟨huniqueId.append hid, huniqueHash.append hhash, fun t ht => ?_⟩
  rcases List.mem_append.mp ht with ht | ht
  · exact hchecks t ht
  · rw [List.mem_singleton.mp ht]
    exact hn

/-- An inserted row has a new id. -/
theorem id_ne_of_insert {T T' : Table RefreshToken RefreshToken.Constraints} {n u : RefreshToken}
    (hins : T.insert n = some T') (hu : u ∈ T) : u.id ≠ n.id := by
  have hunique := T'.valid.1
  rw [Table.insert_eq_some.mp hins] at hunique
  exact hunique.ne_of_append hu

/-! ## What a commit does -/

/-- What the commit of a rotation does: the token with the stored id was open, it is used, and its
successor is inserted. -/
structure Rotated (K : Crypto) (stored : RefreshToken) (x : Reading) (db db' : Database)
    (t : RefreshToken) : Prop where
  mem : t ∈ db.refreshTokens
  id : t.id = stored.id
  unused : t.usedAt = none
  unrevoked : t.revokedAt = none
  rows : ∃ db₁, Ages db db₁ ∧ (∀ u ∈ db₁.refreshTokens, u.id = stored.id → u.usedAt.isSome)
    ∧ db₁.refreshTokens.insert (stored.next K x) = some db'.refreshTokens

theorem replay_rotation {stored : RefreshToken} {now : Timestamp} {x : Reading}
    (h : (code K).replay [.claim stored.id now, .create (stored.next K x)] db = some db') :
    ∃ t, Rotated K stored x db db' t := by
  obtain ⟨db₁, hclaim, h⟩ := Option.bind_eq_some_iff.mp h
  obtain ⟨db₂, hcreate, h⟩ := Option.bind_eq_some_iff.mp h
  obtain rfl : db₂ = db' := Option.some.inj h
  have hages : Ages db db₁ := exec_ages (w := .claim stored.id now) (by simp) hclaim
  simp only [code, Write.exec, Option.ite_none_right_eq_some, Option.map_eq_some_iff,
    List.any_eq_true, Bool.and_eq_true, decide_eq_true_eq, Option.isNone_iff_eq_none]
    at hclaim hcreate
  obtain ⟨⟨t, ht, ⟨⟨hid, hused⟩, hrevoked⟩, hlt⟩, ts, hts, rfl⟩ := hclaim
  obtain ⟨-, ts', hts', rfl⟩ := hcreate
  refine ⟨t, ht, hid, hused, hrevoked, _, hages, fun u hu huid => ?_, hts'⟩
  obtain ⟨v, hv, rfl⟩ := (Table.mem_update hts).mp hu
  split at huid
  · next hclaimable => rw [if_pos hclaimable]; rfl
  · next hclaimable =>
    -- The row with this id is the one that was claimed.
    obtain rfl := db.refreshTokens.valid.1.eq hv ht (huid.trans hid.symm)
    exact absurd (by simp [hid, hused, hrevoked, hlt]) hclaimable

theorem replay_start {token : RefreshToken}
    (h : (code K).replay [.start token] db = some db') :
    (∀ t ∈ db.refreshTokens, t.familyId ≠ token.familyId)
      ∧ db.refreshTokens.insert token = some db'.refreshTokens := by
  obtain ⟨db₁, hstart, h⟩ := Option.bind_eq_some_iff.mp h
  obtain rfl : db₁ = db' := Option.some.inj h
  simp only [code, Write.exec, Option.ite_none_right_eq_some, Option.map_eq_some_iff] at hstart
  obtain ⟨⟨-, hfresh⟩, ts, hts, rfl⟩ := hstart
  exact ⟨hfresh, hts⟩

/-- **What a commit does**: it rotates one token, starts a family, or only ages the tokens. -/
theorem commit_cases {p : Point} (h : (code K).replay ((code K).writes p) db = some db') :
    (∃ stored accessToken now x t, p = .rotating stored accessToken now x
        ∧ Rotated K stored x db db' t)
      ∨ (∃ token passwordHash, p = .issuing token passwordHash
        ∧ (∀ t ∈ db.refreshTokens, t.familyId ≠ token.familyId)
        ∧ db.refreshTokens.insert token = some db'.refreshTokens)
      ∨ Ages db db' := by
  cases p with
  | rotating stored accessToken now x =>
    obtain ⟨t, ht⟩ := replay_rotation h
    exact .inl ⟨stored, accessToken, now, x, t, rfl, ht⟩
  | issuing token passwordHash =>
    exact .inr (.inl ⟨token, passwordHash, rfl, replay_start h⟩)
  | revoking | switching | resetting => exact .inr (.inr (replay_ages (by simp [code]) h))
  | login | loginCompare | createSessionForUser | sessionAccess | refreshSession | refreshContext
  | refreshAccess | revokeSession | revokeRefreshTokenFamily | switchActiveUniversity | switchFind
  | switchUpdate | switchUser | resetPassword | resetTransaction | finished | failed =>
    exact .inr (.inr (replay_ages (by simp [code]) h))

/-! ## What a call knows of the token it read -/

/-- A copy's row is there. -/
def Database.Knows (db : Database) (t : RefreshToken) : Prop :=
  ∃ t' ∈ db.refreshTokens, t'.identity = t.identity

/-- The copy a call holds on its way to a rotation. -/
def Point.copy : Point → Option RefreshToken
  | .refreshContext stored _ _ | .refreshAccess stored _ _ | .rotating stored _ _ _ => some stored
  | _ => none

/-- The row with a copy's id is the copy's row. -/
theorem Database.Knows.identity_eq {t t' : RefreshToken} (h : db.Knows t)
    (ht' : t' ∈ db.refreshTokens) (hid : t'.id = t.id) : t'.identity = t.identity := by
  obtain ⟨u, hu, heq⟩ := h
  have : t' = u :=
    db.refreshTokens.valid.1.eq ht' hu (hid.trans (RefreshToken.identity_eq heq).1.symm)
  rw [this, heq]

/-- Rows stay, through commits. -/
theorem knows_commit {p : Point} (h : (code K).replay ((code K).writes p) db = some db')
    {t : RefreshToken} (ht : db.Knows t) : db'.Knows t := by
  obtain ⟨u, hu, heq⟩ := ht
  rcases commit_cases h with ⟨_, _, _, _, _, -, hrot⟩ | ⟨_, _, -, -, hins⟩ | hages
  · obtain ⟨db₁, hages, -, hins⟩ := hrot.rows
    obtain ⟨v, hv, hvu⟩ := hages.stays u hu
    exact ⟨v, (Table.mem_insert hins).mpr (.inl hv), hvu.trans heq⟩
  · exact ⟨u, (Table.mem_insert hins).mpr (.inl hu), heq⟩
  · obtain ⟨v, hv, hvu⟩ := hages.stays u hu
    exact ⟨v, hv, hvu.trans heq⟩

@[simp] theorem copy_login (user : Option User) (password : String) :
    (login user password).copy = none := by
  cases user with
  | none => rfl
  | some user =>
    simp only [login]
    split_ifs
    · rfl
    · split <;> rfl

@[simp] theorem copy_loginCompare (user : User) (passwordHash password : String) :
    (loginCompare K user passwordHash password).copy = none := by
  simp only [loginCompare]
  split_ifs <;> rfl

theorem id_of_user? {id : Uuid} {u : User} (h : db.user? id = some u) : u.id = id := by
  have hp := List.find?_some h
  exact of_decide_eq_true hp

/-- **What `refreshSession` does with a token it finds**: it revokes the family, or goes on with an
open token of an active user. -/
theorem refreshSession_cases (db : Database) (stored : RefreshToken) (now : Timestamp) :
    refreshSession db (some stored) now
        = .revokeRefreshTokenFamily stored.familyId now (.threw .invalidSession)
      ∨ ∃ user, db.user? stored.userId = some user ∧ stored.Open
        ∧ (refreshSession db (some stored) now = .refreshContext stored user now
          ∨ stored.activeRootOrganizationId = none
            ∧ refreshSession db (some stored) now = .refreshAccess stored user now) := by
  by_cases hused : stored.usedAt.isSome
  · exact .inl (by simp [refreshSession, hused])
  · cases huser : db.user? stored.userId with
    | none => exact .inl (by simp [refreshSession, huser])
    | some user =>
      by_cases hbad : stored.revokedAt.isSome ∨ stored.expiresAt ≤ now ∨ user.status ≠ .active
          ∨ user.emailVerifiedAt.isNone
      · exact .inl (by simp only [refreshSession, huser, if_pos hbad, ite_self])
      · have hopen : stored.Open := ⟨Option.not_isSome_iff_eq_none.mp hused,
          Option.not_isSome_iff_eq_none.mp fun h => hbad (.inl h)⟩
        refine .inr ⟨user, rfl, hopen, ?_⟩
        by_cases hroot : stored.activeRootOrganizationId.isSome
        · exact .inl (by simp only [refreshSession, huser, if_neg hused, if_neg hbad, if_pos hroot])
        · exact .inr ⟨Option.not_isSome_iff_eq_none.mp hroot,
            by simp only [refreshSession, huser, if_neg hused, if_neg hbad, if_neg hroot]⟩

theorem copy_refreshSession {stored : Option RefreshToken} {now : Timestamp} {t : RefreshToken}
    (h : (refreshSession db stored now).copy = some t) : stored = some t := by
  cases stored with
  | none => cases h
  | some stored =>
    rcases refreshSession_cases db stored now with heq | ⟨user, -, -, heq | ⟨-, heq⟩⟩ <;>
      rw [heq] at h
    · cases h
    · exact h
    · exact h

@[simp] theorem copy_revokeSession (stored : Option RefreshToken) (now : Timestamp) :
    (revokeSession stored now).copy = none := by
  cases stored <;> rfl

@[simp] theorem copy_switchFind (userId root : Uuid) (token : Option RefreshToken)
    (now : Timestamp) : (switchFind userId root token now).copy = none := by
  cases token with
  | none => rfl
  | some token =>
    simp only [switchFind]
    split_ifs <;> rfl

@[simp] theorem copy_resetPassword (stored : Option PasswordResetToken) (password : String)
    (now : Timestamp) : (resetPassword K db stored password now).copy = none := by
  cases stored with
  | none => rfl
  | some stored =>
    simp only [resetPassword]
    split_ifs <;> rfl

/-- What a read leaves a call with: the copy it had, or none, or the row it has just found. -/
theorem copy_read {p p' : Point} {x : Reading} (h : p.read K db x = some p') {t : RefreshToken}
    (ht : p'.copy = some t) : p.copy = some t ∨ t ∈ db.refreshTokens := by
  cases p with
  | login email password =>
    obtain rfl := Option.some.inj h
    split at ht
    · simp at ht
    · cases ht
  | loginCompare =>
    obtain rfl := Option.some.inj h
    simp at ht
  | createSessionForUser | sessionAccess =>
    obtain rfl := Option.some.inj h
    cases ht
  | refreshSession token =>
    obtain rfl := Option.some.inj h
    split at ht
    · cases ht
    · exact .inr (Table.mem_of_find? (copy_refreshSession ht))
  | refreshContext stored user now =>
    obtain rfl := Option.some.inj h
    split at ht
    · exact .inl ht
    · cases ht
  | refreshAccess stored user now =>
    obtain rfl := Option.some.inj h
    exact .inl ht
  | revokeSession token =>
    obtain rfl := Option.some.inj h
    split at ht
    · cases ht
    · simp at ht
  | switchActiveUniversity userId root token =>
    obtain rfl := Option.some.inj h
    split at ht
    · cases ht
    · split at ht <;> cases ht
  | switchFind | resetPassword =>
    obtain rfl := Option.some.inj h
    simp at ht
  | revokeRefreshTokenFamily | switchUpdate | switchUser | resetTransaction =>
    obtain rfl := Option.some.inj h
    cases ht
  | issuing | rotating | revoking | switching | resetting | finished | failed => cases h

theorem copy_rolledBack (p : Point) : ((code K).rolledBack p).copy = none := by
  cases p <;> rfl

theorem copy_committed {p : Point} {t : RefreshToken}
    (h : ((code K).committed p).copy = some t) : p.copy = some t := by
  cases p with
  | issuing | rotating | revoking | switching | resetting => cases h
  | login | loginCompare | createSessionForUser | sessionAccess | refreshSession | refreshContext
  | refreshAccess | revokeSession | revokeRefreshTokenFamily | switchActiveUniversity | switchFind
  | switchUpdate | switchUser | resetPassword | resetTransaction | finished | failed => exact h

/-! ## The outline -/

/-- A row inserted into its user's family. -/
theorem OwnedFamilies.insert {n : RefreshToken} (h : OwnedFamilies db)
    (hins : db.refreshTokens.insert n = some db'.refreshTokens)
    (hn : ∀ t ∈ db.refreshTokens, t.familyId = n.familyId → t.userId = n.userId) :
    OwnedFamilies db' := by
  intro t ht t' ht' hf
  rcases (Table.mem_insert hins).mp ht with ht | rfl <;>
    rcases (Table.mem_insert hins).mp ht' with ht' | rfl
  · exact h t ht t' ht' hf
  · exact hn t ht hf
  · exact (hn t' ht' hf.symm).symm
  · rfl

theorem OwnedFamilies.ages (h : OwnedFamilies db) (hages : Ages db db') : OwnedFamilies db' := by
  intro t ht t' ht' hf
  obtain ⟨u, hu, hut, -⟩ := hages.came t ht
  obtain ⟨u', hu', hut', -⟩ := hages.came t' ht'
  obtain ⟨-, huser, hfam, -⟩ := RefreshToken.identity_eq hut
  obtain ⟨-, huser', hfam', -⟩ := RefreshToken.identity_eq hut'
  rw [← huser, ← huser']
  exact h u hu u' hu' (by rw [hfam, hfam', hf])

/-- The successor of a token whose row is there joins its user's family. -/
theorem OwnedFamilies.rotated {stored : RefreshToken} {x : Reading} {t : RefreshToken}
    (h : OwnedFamilies db) (hk : db.Knows stored) (hrot : Rotated K stored x db db' t) :
    OwnedFamilies db' := by
  obtain ⟨db₁, hages, -, hins⟩ := hrot.rows
  refine (h.ages hages).insert hins fun u hu hf => ?_
  obtain ⟨v, hv, hid⟩ := hages.stays t hrot.mem
  obtain ⟨-, huser, hfam, -⟩ :=
    RefreshToken.identity_eq (hid.trans (hk.identity_eq hrot.mem hrot.id))
  exact (h.ages hages u hu v hv (hf.trans hfam.symm)).trans huser

/-- Others leave the tokens alone. -/
theorem outside_refreshTokens {x : Outside} (h : (code K).outside x db = some db') :
    db'.refreshTokens = db.refreshTokens := by
  cases x with
  | users | directory =>
    obtain rfl := Option.some.inj h
    rfl
  | requestReset token =>
    obtain ⟨ts, -, rfl⟩ := Option.map_eq_some_iff.mp h
    rfl

/-- **The outline**: families have one user each, and the row of each copy is there. -/
def outline (K : Crypto) : (code K).Outline Machine.free where
  Inv db _ := OwnedFamilies db
  At db _ p := ∀ t, p.copy = some t → db.Knows t
  entry {db _ p} _ hp t ht := by
    cases p with
    | login | createSessionForUser | refreshSession | revokeSession | switchActiveUniversity
    | resetPassword => cases ht
    | loginCompare | sessionAccess | issuing | refreshContext | refreshAccess | rotating
    | revokeRefreshTokenFamily | revoking | switchFind | switchUpdate | switching | switchUser
    | resetTransaction | resetting | finished | failed => cases hp
  read {db _ p x p'} _ hp h t ht := by
    rcases copy_read h ht with hcopy | hmem
    · exact hp t hcopy
    · exact ⟨t, hmem, rfl⟩
  rolledBack {db _ p} _ _ t ht := by
    rw [copy_rolledBack] at ht
    cases ht
  commit {s i c db} _ hinv hp _ _ hrep := by
    refine ⟨?_, fun t ht => knows_commit hrep (hp t (copy_committed ht)),
      fun j d _ _ hd t ht => knows_commit hrep (hd t ht)⟩
    rcases commit_cases hrep with ⟨stored, _, _, x, t, hpc, hrot⟩ | ⟨_, _, -, hfresh, hins⟩ | hages
    · exact OwnedFamilies.rotated hinv (hp stored (by rw [hpc]; rfl)) hrot
    · exact OwnedFamilies.insert hinv hins fun t ht hf => absurd hf (hfresh t ht)
    · exact OwnedFamilies.ages hinv hages
  outside {s x db} _ hinv h := by
    have heq := outside_refreshTokens h
    refine ⟨OwnedFamilies.ages hinv (.of_eq heq), fun _ _ hp t ht => ?_⟩
    obtain ⟨u, hu, hut⟩ := hp t ht
    exact ⟨u, heq ▸ hu, hut⟩

/-! ## A family without open tokens -/

/-- **Dead**: the family exists, and none of its tokens is open. -/
def Dead (familyId : Uuid) (db : Database) : Prop :=
  (∃ t ∈ db.refreshTokens, t.familyId = familyId) ∧
    ∀ t ∈ db.refreshTokens, t.familyId = familyId → ¬ t.Open

variable {f : Uuid}

theorem Dead.ages (h : Dead f db) (hages : Ages db db') : Dead f db' := by
  obtain ⟨⟨t, ht, hf⟩, hdead⟩ := h
  constructor
  · obtain ⟨u, hu, hut⟩ := hages.stays t ht
    exact ⟨u, hu, (RefreshToken.identity_eq hut).2.2.1.trans hf⟩
  · intro u hu huf hopen
    obtain ⟨v, hv, hvu, hwas⟩ := hages.opened hu
    exact hdead v hv ((RefreshToken.identity_eq hvu).2.2.1.trans huf) (hwas hopen)

theorem Dead.insert {n : RefreshToken} (h : Dead f db)
    (hins : db.refreshTokens.insert n = some db'.refreshTokens) (hn : n.familyId ≠ f) :
    Dead f db' := by
  obtain ⟨⟨t, ht, hf⟩, hdead⟩ := h
  refine ⟨⟨t, (Table.mem_insert hins).mpr (.inl ht), hf⟩, fun u hu huf => ?_⟩
  rcases (Table.mem_insert hins).mp hu with hu | rfl
  · exact hdead u hu huf
  · exact absurd huf hn

/-- **The step lemma**: a rotation needs an open token. -/
theorem Dead.step {s u : Sessions Database Point Empty} {l : Label Point Reading Outside}
    (hs : (outline K).Holds s) (h : Dead f s.db) (hstep : (code K).step s l = some u) :
    Dead f u.db := by
  rcases hs.db_cases hstep with heq | ⟨i, c, -, -, hp, -, hrep⟩ | ⟨x, -, hx⟩
  · exact heq ▸ h
  · rcases commit_cases hrep with ⟨stored, _, _, x, t, hpc, hrot⟩ | ⟨_, _, -, hfresh, hins⟩ | hages
    · obtain ⟨db₁, hages, -, hins⟩ := hrot.rows
      have hknown : s.db.Knows stored := hp stored (by rw [hpc]; rfl)
      obtain ⟨-, -, hfam, -⟩ := RefreshToken.identity_eq (hknown.identity_eq hrot.mem hrot.id)
      exact (h.ages hages).insert hins fun hf =>
        h.2 t hrot.mem (hfam.trans hf) ⟨hrot.unused, hrot.unrevoked⟩
    · obtain ⟨t, ht, hf⟩ := h.1
      exact h.insert hins fun hfam => hfresh t ht (hf.trans hfam.symm)
    · exact h.ages hages
  · exact h.ages (.of_eq (outside_refreshTokens hx))

/-- **The run lemma**: a family without open tokens has none ever after. -/
theorem Dead.run {s u : Sessions Database Point Empty} (hs : (outline K).Holds s)
    (h : Dead f s.db) (hrun : (machine K).Run Machine.free s u) : Dead f u.db := by
  have key := hrun.invariant (I := fun s => (outline K).Holds s ∧ Dead f s.db) ⟨hs, h⟩
    fun ⟨hs, h⟩ _ hstep => ⟨hs.step trivial hstep, h.step hs hstep⟩
  exact key.2

/-! ## What an update finds -/

/-- Each token of the family that is not revoked satisfies `P`. -/
def Unrevoked (familyId : Uuid) (P : RefreshToken → Prop) (db : Database) : Prop :=
  ∀ t ∈ db.refreshTokens, t.familyId = familyId → t.revokedAt = none → P t

variable {P : RefreshToken → Prop}

theorem Unrevoked.ages (hP : ∀ {t t'}, t.identity = t'.identity → P t → P t')
    (h : Unrevoked f P db) (hages : Ages db db') : Unrevoked f P db' := by
  intro u hu huf hunrevoked
  obtain ⟨t, ht, hid, -, hrevoked⟩ := hages.came u hu
  exact hP hid (h t ht ((RefreshToken.identity_eq hid).2.2.1.trans huf) (hrevoked hunrevoked))

theorem Unrevoked.insert {n : RefreshToken} (h : Unrevoked f P db)
    (hins : db.refreshTokens.insert n = some db'.refreshTokens) (hn : n.familyId ≠ f) :
    Unrevoked f P db' := by
  intro u hu huf hunrevoked
  rcases (Table.mem_insert hins).mp hu with hu | rfl
  · exact h u hu huf hunrevoked
  · exact absurd huf hn

/-- **Only a rotation of the family adds a token to those an update may have found.** -/
theorem Unrevoked.commit {p : Point} (hP : ∀ {t t'}, t.identity = t'.identity → P t → P t')
    (h : Unrevoked f P db) (hf : ∃ t ∈ db.refreshTokens, t.familyId = f)
    (hrot : ∀ {stored accessToken now x}, p = .rotating stored accessToken now x →
      stored.familyId ≠ f)
    (hrep : (code K).replay ((code K).writes p) db = some db') : Unrevoked f P db' := by
  rcases commit_cases hrep with ⟨stored, _, _, x, t, hpc, hrow⟩ | ⟨_, _, -, hfresh, hins⟩ | hages
  · obtain ⟨db₁, hages, -, hins⟩ := hrow.rows
    exact (h.ages hP hages).insert hins fun hfam => hrot hpc hfam
  · obtain ⟨t, ht, htf⟩ := hf
    exact h.insert hins fun hfam => hfresh t ht (htf.trans hfam.symm)
  · exact h.ages hP hages

/-- To be among the rows found is a matter of the id. -/
theorem mem_ids {ids : List Uuid} {t t' : RefreshToken} (hid : t.identity = t'.identity)
    (h : t.id ∈ ids) : t'.id ∈ ids := (RefreshToken.identity_eq hid).1 ▸ h

/-- What a statement finds when it starts. -/
theorem unrevoked_snapshot {scope : Scope}
    (hcovers : ∀ t ∈ db.refreshTokens, t.familyId = f → scope.covers t) :
    Unrevoked f (fun t => t.id ∈ scope.snapshot db) db := fun t ht hf hunrevoked =>
  List.mem_map_of_mem (List.mem_filter.mpr ⟨ht, by simp [Scope.selects, hcovers t ht hf, hunrevoked]⟩)

/-! ## A token that nobody claims -/

/-- What a row is looked up and claimed by. -/
def RefreshToken.face (t : RefreshToken) : Uuid × Uuid × String × Option Timestamp :=
  (t.id, t.familyId, t.tokenHash, t.usedAt)

theorem mem_of_update {p : RefreshToken → Bool} {g : RefreshToken → RefreshToken}
    {ts : Table RefreshToken RefreshToken.Constraints} (h : db.refreshTokens.update p g = some ts)
    {u : RefreshToken} (hu : u ∈ db.refreshTokens) (hg : p u = true → (g u).face = u.face) :
    ∃ u' ∈ ts, u'.face = u.face := by
  refine ⟨_, (Table.mem_update h).mpr ⟨u, hu, rfl⟩, ?_⟩
  split
  · next hp => exact hg hp
  · rfl

/-- **A statement that does not claim a row** keeps its face. -/
theorem exec_face {w : Write} (h : w.exec db = some db') {u : RefreshToken}
    (hu : u ∈ db.refreshTokens) (hw : ∀ now, w ≠ .claim u.id now) :
    ∃ u' ∈ db'.refreshTokens, u'.face = u.face := by
  cases w with
  | claim id now =>
    simp only [Write.exec, Option.ite_none_right_eq_some, Option.map_eq_some_iff] at h
    obtain ⟨-, ts, hts, rfl⟩ := h
    refine mem_of_update hts hu fun hp => ?_
    simp only [Bool.and_eq_true, decide_eq_true_eq] at hp
    exact absurd (by rw [hp.1.1.1]) (hw now)
  | create token =>
    simp only [Write.exec, Option.ite_none_right_eq_some, Option.map_eq_some_iff] at h
    obtain ⟨-, ts, hts, rfl⟩ := h
    exact ⟨u, (Table.mem_insert hts).mpr (.inl hu), rfl⟩
  | start token =>
    simp only [Write.exec, Option.ite_none_right_eq_some, Option.map_eq_some_iff] at h
    obtain ⟨-, ts, hts, rfl⟩ := h
    exact ⟨u, (Table.mem_insert hts).mpr (.inl hu), rfl⟩
  | revoke r =>
    obtain ⟨ts, hts, rfl⟩ := Option.map_eq_some_iff.mp h
    exact mem_of_update hts hu fun _ => rfl
  | switch familyId ids root =>
    obtain ⟨ts, hts, rfl⟩ := Option.map_eq_some_iff.mp h
    exact mem_of_update hts hu fun _ => rfl
  | claimReset id now =>
    simp only [Write.exec, Option.ite_none_right_eq_some, Option.map_eq_some_iff] at h
    obtain ⟨-, ts, -, rfl⟩ := h
    exact ⟨u, hu, rfl⟩
  | updatePassword userId passwordHash =>
    simp only [Write.exec, Option.ite_none_right_eq_some, Option.some.injEq] at h
    obtain ⟨-, rfl⟩ := h
    exact ⟨u, hu, rfl⟩
  | claimResets userId ids now =>
    obtain ⟨ts, -, rfl⟩ := Option.map_eq_some_iff.mp h
    exact ⟨u, hu, rfl⟩

theorem replay_face {ws : List Write} {u : RefreshToken} (hu : u ∈ db.refreshTokens)
    (hws : ∀ now, .claim u.id now ∉ ws) (h : (code K).replay ws db = some db') :
    ∃ u' ∈ db'.refreshTokens, u'.face = u.face := by
  induction ws generalizing db u with
  | nil =>
    obtain rfl := Option.some.inj h
    exact ⟨u, hu, rfl⟩
  | cons w ws ih =>
    obtain ⟨db₁, hw, hrest⟩ := Option.bind_eq_some_iff.mp h
    obtain ⟨u₁, hu₁, hface⟩ := exec_face hw hu fun now heq =>
      hws now (heq ▸ List.mem_cons_self)
    have hid : u₁.id = u.id := congrArg Prod.fst hface
    obtain ⟨u', hu', hface'⟩ := ih hu₁ (fun now hmem =>
      hws now (List.mem_cons_of_mem w (hid ▸ hmem))) hrest
    exact ⟨u', hu', hface'.trans hface⟩

/-- Only a rotation claims, the token it has found. -/
theorem claim_mem_writes {p : Point} {id : Uuid} {now : Timestamp}
    (h : .claim id now ∈ (code K).writes p) :
    ∃ stored accessToken now' x, p = .rotating stored accessToken now' x ∧ stored.id = id := by
  cases p with
  | rotating stored accessToken now' x =>
    refine ⟨stored, accessToken, now', x, rfl, ?_⟩
    simp only [code, List.mem_cons, Write.claim.injEq, List.not_mem_nil, or_false] at h
    rcases h with ⟨rfl, -⟩ | h
    · rfl
    · cases h
  | issuing | revoking | switching | resetting => simp [code] at h
  | login | loginCompare | createSessionForUser | sessionAccess | refreshSession | refreshContext
  | refreshAccess | revokeSession | revokeRefreshTokenFamily | switchActiveUniversity | switchFind
  | switchUpdate | switchUser | resetPassword | resetTransaction | finished | failed => cases h

/-- **Unused**: the token is there, and not used. -/
def Unused (id : Uuid) (db : Database) : Prop :=
  ∃ t ∈ db.refreshTokens, t.id = id ∧ t.usedAt = none

/-- The row with its id is that one. -/
theorem Unused.usedAt {id : Uuid} (h : Unused id db) {t : RefreshToken}
    (ht : t ∈ db.refreshTokens) (hid : t.id = id) : t.usedAt = none := by
  obtain ⟨u, hu, huid, hunused⟩ := h
  rwa [db.refreshTokens.valid.1.eq ht hu (hid.trans huid.symm)]

/-- **Only its own rotation uses a token.** -/
theorem Unused.commit {id : Uuid} {p : Point} (h : Unused id db)
    (hrot : ∀ {stored accessToken now x}, p = .rotating stored accessToken now x → stored.id ≠ id)
    (hrep : (code K).replay ((code K).writes p) db = some db') : Unused id db' := by
  obtain ⟨t, ht, rfl, hunused⟩ := h
  have hunclaimed (now : Timestamp) : .claim t.id now ∉ (code K).writes p := fun hmem => by
    obtain ⟨stored, _, _, _, hpc, hid⟩ := claim_mem_writes hmem
    exact hrot hpc hid
  obtain ⟨u, hu, hface⟩ := replay_face ht hunclaimed hrep
  simp only [RefreshToken.face, Prod.mk.injEq] at hface
  exact ⟨u, hu, hface.1, hface.2.2.2.trans hunused⟩

end ResourceHive.Sessions
