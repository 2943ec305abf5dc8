import ResourceHive.Sessions.Rotation

/-!
# Sessions/Switching — whether a switched university stays switched

`switchActiveUniversity` updates the unrevoked tokens of a family that its `updateMany` finds, and a
rotation gives its successor the university of the copy it has read.  The switch is lost to a
rotation in between: one whose copy was read before the switch and which commits after it, or whose
successor was inserted after the switch's snapshot (`keepsSwitch`).  In a run without the two, a copy
that can be rotated is of its row's university and a switch has found all open tokens (`Owns`); after
the switch the open tokens of the family are of the university (`Switched`), and so is what a later
refresh issues (`switch_not_lost`).
-/

namespace ResourceHive.Sessions

/-- A call on its way to rotating an open token of the family, read as another university's. -/
def Point.overwrites (db : Database) (familyId rootOrganizationId : Uuid) (p : Point) : Bool :=
  p.copy.any fun stored => decide (stored.familyId = familyId)
    && decide (stored.activeRootOrganizationId ≠ some rootOrganizationId)
    && db.refreshTokens.rows.any fun k => decide (k.id = stored.id) && k.usedAt.isNone
      && k.revokedAt.isNone

/-- A switch of the family is between its snapshot and its commit. -/
def Point.switches (familyId : Uuid) : Point → Bool
  | .switching _ _ f _ => decide (f = familyId)
  | _ => false

/-- **The condition**: when a switch commits, no call is on its way to rotating an open token of the
family that it has read as another university's; and from the snapshot of a switch to its commit, no
rotation of the family commits. -/
def keepsSwitch (s : Sessions Database Point Empty) : Label Point Reading Outside → Bool
  | .commit i => s.calls[i]?.all fun c => match c.pc with
    | .switching _ root familyId _ => s.calls.all fun d => !d.pc.overwrites s.db familyId root
    | .rotating stored _ _ _ => s.calls.all fun d => !d.pc.switches stored.familyId
    | _ => true
  | _ => true

/-- The user keeps an approved membership in the university. -/
def keepsMembership (userId root : Uuid) (s : Sessions Database Point Empty) :
    Label Point Reading Outside → Bool
  | .outside (.directory organizations memberships) =>
    (({ s.db with organizations, memberships } : Database).resolveUniversityContext userId
      (some root)).isSome
  | _ => true

/-- No other switch of the family commits. -/
def switchesNot (familyId : Uuid) (s : Sessions Database Point Empty) :
    Label Point Reading Outside → Bool
  | .commit i => s.calls[i]?.all fun c => match c.pc with
    | .switching _ _ f _ => decide (f ≠ familyId)
    | _ => true
  | _ => true

variable {K : Crypto} {db db' db'' : Database} {f root userId : Uuid}

/-! ## The open tokens of a family -/

/-- **The family is switched**: it is the user's, and its open tokens are of the university. -/
structure Switched (f userId root : Uuid) (db : Database) : Prop where
  owned : ∃ k ∈ db.refreshTokens, k.familyId = f ∧ k.userId = userId
  tokens : ∀ k ∈ db.refreshTokens, k.familyId = f → k.Open → k.activeRootOrganizationId = some root

/-- Open tokens of the family were open before, with the same university. -/
def Inherit (f : Uuid) (db db' : Database) : Prop :=
  ∀ k' ∈ db'.refreshTokens, k'.familyId = f → k'.Open → ∃ k ∈ db.refreshTokens,
    k.identity = k'.identity ∧ k.Open ∧ k.activeRootOrganizationId = k'.activeRootOrganizationId

theorem Inherit.of_eq (h : db'.refreshTokens = db.refreshTokens) : Inherit f db db' :=
  fun k hk _ hopen => ⟨k, h ▸ hk, rfl, hopen, rfl⟩

theorem Inherit.trans (h : Inherit f db db') (h' : Inherit f db' db'') : Inherit f db db'' := by
  intro k hk hf hopen
  obtain ⟨k', hk', hid', hopen', hroot'⟩ := h' k hk hf hopen
  have hf' : k'.familyId = f := (RefreshToken.identity_eq hid').2.2.1.trans hf
  obtain ⟨k'', hk'', hid'', hopen'', hroot''⟩ := h k' hk' hf' hopen'
  exact ⟨k'', hk'', hid''.trans hid', hopen'', hroot''.trans hroot'⟩

/-- An update that closes what it touches, or touches no token of the family. -/
theorem Inherit.of_update {p : RefreshToken → Bool} {u : RefreshToken → RefreshToken}
    (h : db.refreshTokens.update p u = some db'.refreshTokens)
    (hu : ∀ k, p k → (u k).familyId = f → ¬ (u k).Open) : Inherit f db db' := by
  intro k' hk' hf hopen
  obtain ⟨k, hk, rfl⟩ := (Table.mem_update h).mp hk'
  by_cases hp : p k
  · rw [if_pos hp] at hf hopen
    exact absurd hopen (hu k hp hf)
  · rw [if_neg hp] at hf hopen ⊢
    exact ⟨k, hk, rfl, hopen, rfl⟩

/-- A statement that inserts no token and switches another family at most. -/
theorem exec_inherit {w : Write} (hw : ∀ token, w ≠ .create token ∧ w ≠ .start token)
    (hswitch : ∀ ids root, w ≠ .switch f ids root) (h : w.exec db = some db') :
    Inherit f db db' := by
  cases w with
  | claim id now =>
    simp only [Write.exec, Option.ite_none_right_eq_some, Option.map_eq_some_iff] at h
    obtain ⟨-, ts, hts, rfl⟩ := h
    exact .of_update hts fun _ _ _ hopen => absurd hopen.1 (Option.some_ne_none _)
  | create token => exact absurd rfl (hw token).1
  | start token => exact absurd rfl (hw token).2
  | revoke r =>
    obtain ⟨ts, hts, rfl⟩ := Option.map_eq_some_iff.mp h
    exact .of_update hts fun _ _ _ hopen => absurd hopen.2 (Option.some_ne_none _)
  | switch familyId ids root =>
    obtain ⟨ts, hts, rfl⟩ := Option.map_eq_some_iff.mp h
    refine .of_update hts fun k hp hf => ?_
    simp only [Scope.selects, Scope.covers, Bool.and_eq_true, decide_eq_true_eq] at hp
    exact absurd rfl (hf ▸ hp.2.1 ▸ hswitch ids root)
  | claimReset id now =>
    simp only [Write.exec, Option.ite_none_right_eq_some, Option.map_eq_some_iff] at h
    obtain ⟨-, ts, -, rfl⟩ := h
    exact .of_eq rfl
  | updatePassword userId passwordHash =>
    simp only [Write.exec, Option.ite_none_right_eq_some, Option.some.injEq] at h
    obtain ⟨-, rfl⟩ := h
    exact .of_eq rfl
  | claimResets userId ids now =>
    obtain ⟨ts, -, rfl⟩ := Option.map_eq_some_iff.mp h
    exact .of_eq rfl

theorem replay_inherit {ws : List Write}
    (hws : ∀ w ∈ ws, (∀ token, w ≠ .create token ∧ w ≠ .start token)
      ∧ ∀ ids root, w ≠ .switch f ids root)
    (h : (code K).replay ws db = some db') : Inherit f db db' := by
  induction ws generalizing db with
  | nil =>
    obtain rfl : db = db' := Option.some.inj h
    exact .of_eq rfl
  | cons w ws ih =>
    obtain ⟨db₁, hw, hrest⟩ := Option.bind_eq_some_iff.mp h
    obtain ⟨hinsert, hswitch⟩ := hws w List.mem_cons_self
    exact (exec_inherit hinsert hswitch hw).trans
      (ih (fun w' hw' => hws w' (List.mem_cons_of_mem w hw')) hrest)

/-- **Where an open token of the family is from**, after a commit that is no switch of it. -/
inductive Origin (K : Crypto) (p : Point) (db : Database) (k' : RefreshToken) : Prop
  | before {k : RefreshToken} (hk : k ∈ db.refreshTokens) (hid : k.identity = k'.identity)
      (hopen : k.Open) (hroot : k.activeRootOrganizationId = k'.activeRootOrganizationId)
  | rotated {stored : RefreshToken} {accessToken : AccessToken} {now : Timestamp} {x : Reading}
      {k : RefreshToken} (hp : p = .rotating stored accessToken now x) (hk' : k' = stored.next K x)
      (hk : k ∈ db.refreshTokens) (hid : k.id = stored.id) (hopen : k.Open)
      (hnew : ∀ u ∈ db.refreshTokens, u.id ≠ k'.id)
  | started (hfamily : ∀ u ∈ db.refreshTokens, u.familyId ≠ k'.familyId)
      (hnew : ∀ u ∈ db.refreshTokens, u.id ≠ k'.id)

theorem origin {p : Point} (hp : ∀ userId root ids, p ≠ .switching userId root f ids)
    (hrep : (code K).replay ((code K).writes p) db = some db') {k' : RefreshToken}
    (hk' : k' ∈ db'.refreshTokens) (hf : k'.familyId = f) (hopen : k'.Open) : Origin K p db k' := by
  have hinherit (hin : Inherit f db db') : Origin K p db k' := by
    obtain ⟨k, hk, hid, hkopen, hroot⟩ := hin k' hk' hf hopen
    exact .before hk hid hkopen hroot
  cases p with
  | rotating stored accessToken now x =>
    obtain ⟨k, hrot⟩ := replay_rotation hrep
    obtain ⟨db₁, hclaim, hrest⟩ := Option.bind_eq_some_iff.mp hrep
    obtain ⟨db₂, hcreate, hlast⟩ := Option.bind_eq_some_iff.mp hrest
    obtain rfl : db₂ = db' := Option.some.inj hlast
    have hclaimed : Inherit f db db₁ := exec_inherit (w := .claim stored.id now) (by simp)
      (by simp) hclaim
    have hages : Ages db db₁ := exec_ages (w := .claim stored.id now) (by simp) hclaim
    simp only [code, Write.exec, Option.ite_none_right_eq_some, Option.map_eq_some_iff] at hcreate
    obtain ⟨-, ts, hts, rfl⟩ := hcreate
    rcases (Table.mem_insert hts).mp hk' with hmem | rfl
    · obtain ⟨v, hv, hid, hvopen, hroot⟩ := hclaimed k' hmem hf hopen
      exact .before hv hid hvopen hroot
    · refine .rotated rfl rfl hrot.mem hrot.id ⟨hrot.unused, hrot.unrevoked⟩ fun u hu => ?_
      obtain ⟨u', hu', hid⟩ := hages.stays u hu
      rw [← (RefreshToken.identity_eq hid).1]
      exact id_ne_of_insert hts hu'
  | issuing token passwordHash =>
    obtain ⟨hfresh, hins⟩ := replay_start hrep
    rcases (Table.mem_insert hins).mp hk' with hk' | rfl
    · exact .before hk' rfl hopen rfl
    · exact .started hfresh fun u hu => id_ne_of_insert hins hu
  | switching userId root familyId ids =>
    refine hinherit (replay_inherit (fun w hw => ?_) hrep)
    obtain rfl := List.mem_singleton.mp hw
    refine ⟨by simp, fun ids' root' heq => ?_⟩
    obtain ⟨rfl, -⟩ := Write.switch.inj heq
    exact hp _ _ _ rfl
  | revoking | resetting => exact hinherit (replay_inherit (by simp [code]) hrep)
  | login | loginCompare | createSessionForUser | sessionAccess | refreshSession | refreshContext
  | refreshAccess | revokeSession | revokeRefreshTokenFamily | switchActiveUniversity | switchFind
  | switchUpdate | switchUser | resetPassword | resetTransaction | finished | failed =>
    exact hinherit (replay_inherit (by simp [code]) hrep)

/-- **What a switch leaves a token with**: its new university, if it is an open token of the family
that the switch has found. -/
theorem root_of_switch {userId root : Uuid} {ids : List Uuid}
    (hrep : (code K).replay ((code K).writes (.switching userId root f ids)) db = some db')
    {k' : RefreshToken} (hk' : k' ∈ db'.refreshTokens) (hopen : k'.Open) :
    ∃ k ∈ db.refreshTokens, k.identity = k'.identity ∧ k.Open
      ∧ (k'.activeRootOrganizationId = some root ∨
        k'.activeRootOrganizationId = k.activeRootOrganizationId
          ∧ (k.familyId = f → k.id ∉ ids)) := by
  obtain ⟨db₁, hswitch, hlast⟩ := Option.bind_eq_some_iff.mp hrep
  obtain rfl : db₁ = db' := Option.some.inj hlast
  obtain ⟨ts, hts, rfl⟩ := Option.map_eq_some_iff.mp hswitch
  obtain ⟨k, hk, rfl⟩ := (Table.mem_update hts).mp hk'
  by_cases hp : decide (k.id ∈ ids) && (Scope.family f).selects k
  · rw [if_pos hp] at hopen ⊢
    exact ⟨k, hk, rfl, hopen, .inl rfl⟩
  · rw [if_neg hp] at hopen ⊢
    refine ⟨k, hk, rfl, hopen, .inr ⟨rfl, fun hf hid => hp ?_⟩⟩
    simp [Scope.selects, Scope.covers, hid, hf, hopen.2]

/-! ## What a call knows of the family -/

/-- A user's family stays his. -/
theorem owned_mono (hknows : ∀ k, db.Knows k → db'.Knows k)
    (hf : ∃ k ∈ db.refreshTokens, k.familyId = f ∧ k.userId = userId) :
    ∃ k ∈ db'.refreshTokens, k.familyId = f ∧ k.userId = userId := by
  obtain ⟨k, hk, rfl, rfl⟩ := hf
  obtain ⟨k', hk', hid⟩ := hknows k ⟨k, hk, rfl⟩
  obtain ⟨-, huser, hfamily, -⟩ := RefreshToken.identity_eq hid
  exact ⟨k', hk', hfamily, huser⟩

/-- A copy of a token is of its university, while it is open. -/
def Current (stored : RefreshToken) (db : Database) : Prop :=
  ∀ k ∈ db.refreshTokens, k.id = stored.id → k.Open →
    k.activeRootOrganizationId = stored.activeRootOrganizationId

/-- **What a call knows**: a switch, that the family is there, and the user's, and which tokens it
has; a refresh, of which university its token is. -/
def Owns (db : Database) : Point → Prop
  | .switchUpdate userId _ familyId =>
    ∃ k ∈ db.refreshTokens, k.familyId = familyId ∧ k.userId = userId
  | .switching userId _ familyId ids =>
    (∃ k ∈ db.refreshTokens, k.familyId = familyId ∧ k.userId = userId)
      ∧ Unrevoked familyId (fun t => t.id ∈ ids) db
  | .refreshContext stored _ _ | .refreshAccess stored _ _ | .rotating stored _ _ _ =>
    Current stored db
  | _ => True

/-- Only `switchFind` takes hold of a family, and only a look-up of a token. -/
theorem Owns.read {p p' : Point} {x : Reading} (hp : Owns db p) (h : p.read K db x = some p') :
    Owns db p' := by
  cases p with
  | login email password =>
    obtain rfl := Option.some.inj h
    split
    · unfold login
      split
      · trivial
      · split_ifs
        · trivial
        · split <;> trivial
    · trivial
  | loginCompare =>
    obtain rfl := Option.some.inj h
    simp only [loginCompare]
    split_ifs <;> trivial
  | createSessionForUser | sessionAccess | resetTransaction | revokeRefreshTokenFamily =>
    obtain rfl := Option.some.inj h
    trivial
  | switchUser userId =>
    obtain rfl := Option.some.inj h
    split <;> trivial
  | refreshSession token =>
    obtain rfl := Option.some.inj h
    split
    · trivial
    · next token _ =>
      cases hfind : db.refreshTokens.find? (·.tokenHash = K.hashToken token) with
      | none => trivial
      | some stored =>
        have hcurrent : Current stored db := fun k hk hid _ => by
          rw [db.refreshTokens.valid.1.eq hk (Table.mem_of_find? hfind) hid]
        rcases refreshSession_cases db stored x.now with heq | ⟨user, -, -, heq | ⟨-, heq⟩⟩ <;>
          rw [heq]
        · trivial
        · exact hcurrent
        · exact hcurrent
  | refreshContext stored user now =>
    obtain rfl := Option.some.inj h
    split
    · exact hp
    · trivial
  | refreshAccess =>
    obtain rfl := Option.some.inj h
    exact hp
  | revokeSession token =>
    obtain rfl := Option.some.inj h
    split
    · trivial
    · unfold revokeSession
      split <;> trivial
  | switchActiveUniversity userId root token =>
    obtain rfl := Option.some.inj h
    split
    · trivial
    · split <;> trivial
  | switchFind userId root token =>
    obtain rfl := Option.some.inj h
    unfold switchFind
    split
    · trivial
    · next k hfind =>
      split_ifs with hbad
      · trivial
      · exact ⟨k, Table.mem_of_find? hfind, rfl, not_not.mp fun hne => hbad (.inl hne)⟩
  | switchUpdate userId root familyId =>
    obtain rfl := Option.some.inj h
    exact ⟨hp, unrevoked_snapshot fun t _ hf => decide_eq_true hf⟩
  | resetPassword =>
    obtain rfl := Option.some.inj h
    unfold resetPassword
    split
    · trivial
    · dsimp only
      split_ifs <;> trivial
  | issuing | rotating | revoking | switching | resetting | finished | failed => cases h

section Steps

variable {s t : Sessions Database Point Empty} {i : ℕ} {c d : Session Point}

/-- **A copy stays its token's**: a switch of the family commits while no copy of an open token is of
another university than it switches to. -/
theorem Current.commit {stored : RefreshToken} (h : Current stored s.db) (hk : s.db.Knows stored)
    (hkeeps : keepsSwitch s (.commit i)) (hc : s.calls[i]? = some c) (hd : d ∈ s.calls)
    (hcopy : d.pc.copy = some stored)
    (hrep : (code K).replay ((code K).writes c.pc) s.db = some db') : Current stored db' := by
  intro k' hk' hid hopen
  obtain ⟨row, hrow, hrowid⟩ := hk
  by_cases hswitch : ∃ userId root ids, c.pc = .switching userId root k'.familyId ids
  · obtain ⟨userId, root, ids, hpc⟩ := hswitch
    obtain ⟨k, hk, hkid, hkopen, hroot⟩ := root_of_switch (hpc ▸ hrep) hk' hopen
    obtain ⟨hkid, -, hkfam, -⟩ := RefreshToken.identity_eq hkid
    have hsame := h k hk (hkid.trans hid) hkopen
    rcases hroot with hroot | ⟨hroot, -⟩
    · -- the copy is of the university that the switch is to
      simp only [keepsSwitch, hc, hpc, Option.all_some, List.all_eq_true, Bool.not_eq_true'] at hkeeps
      have hnot := hkeeps d hd
      by_contra hne
      have hfamily : stored.familyId = k'.familyId := by
        obtain rfl := s.db.refreshTokens.valid.1.eq hrow hk
          ((RefreshToken.identity_eq hrowid).1.trans (hkid.trans hid).symm)
        exact (RefreshToken.identity_eq hrowid).2.2.1.symm.trans hkfam
      rw [Point.overwrites, hcopy, Option.any_some, Bool.and_eq_false_iff] at hnot
      rcases hnot with hnot | hnot
      · refine absurd (hnot.symm.trans ?_) Bool.false_ne_true
        simp only [hfamily, decide_true, Bool.true_and, decide_eq_true_eq]
        exact fun heq => hne (hroot.trans heq.symm)
      · refine absurd (hnot.symm.trans (List.any_eq_true.mpr ⟨k, hk, ?_⟩)) Bool.false_ne_true
        simp [hkid, hid, hkopen.1, hkopen.2]
    · exact hroot.trans hsame
  · cases origin (fun userId root ids hpc => hswitch ⟨userId, root, ids, hpc⟩) hrep hk' rfl hopen with
    | before hk hkid hkopen hroot =>
      exact hroot.symm.trans (h _ hk ((RefreshToken.identity_eq hkid).1.trans hid) hkopen)
    | rotated _ _ _ _ _ hnew | started _ hnew =>
      exact absurd ((RefreshToken.identity_eq hrowid).1.trans hid.symm) (hnew row hrow)

/-- What another call's commit keeps. -/
theorem Owns.commit (h : Owns s.db d.pc) (hcopies : ∀ k, d.pc.copy = some k → s.db.Knows k)
    (hkeeps : keepsSwitch s (.commit i)) (hc : s.calls[i]? = some c) (hd : d ∈ s.calls)
    (hrep : (code K).replay ((code K).writes c.pc) s.db = some db') : Owns db' d.pc := by
  have hknows (k : RefreshToken) (hk : s.db.Knows k) : db'.Knows k := knows_commit hrep hk
  have hcurrent {stored : RefreshToken} (hcopy : d.pc.copy = some stored)
      (h : Current stored s.db) : Current stored db' :=
    h.commit (hcopies _ hcopy) hkeeps hc hd hcopy hrep
  generalize hpc : d.pc = p at h hcurrent
  cases p with
  | switchUpdate => exact owned_mono hknows h
  | switching userId root familyId ids =>
    obtain ⟨hfamily, hfound⟩ := h
    obtain ⟨k, hk, hkf, -⟩ := id hfamily
    refine ⟨owned_mono hknows hfamily, hfound.commit mem_ids ⟨k, hk, hkf⟩ ?_ hrep⟩
    intro stored accessToken now x hrot hf
    simp only [keepsSwitch, hc, hrot, Option.all_some, List.all_eq_true, Bool.not_eq_true'] at hkeeps
    have hnot := hkeeps d hd
    simp [hpc, Point.switches, hf] at hnot
  | refreshContext | refreshAccess | rotating => exact hcurrent rfl h
  | _ => trivial

/-- **The outline of a run in which switches are kept**: copies have their rows, and what is known of
the families. -/
def owners (K : Crypto) : (code K).Outline (fun s l => keepsSwitch s l) where
  Inv := (outline K).Inv
  At db hist p := (outline K).At db hist p ∧ Owns db p
  entry {db hist p} hinv hp := by
    refine ⟨(outline K).entry hinv hp, ?_⟩
    cases p with
    | switchUpdate | switching | refreshContext | refreshAccess | rotating => cases hp
    | _ => trivial
  read hinv hp h := ⟨(outline K).read hinv hp.1 h, hp.2.read h⟩
  rolledBack {db hist p} hinv hp := by
    refine ⟨(outline K).rolledBack hinv hp.1, ?_⟩
    cases p <;> trivial
  commit {s i c db} hok hinv hp hc hne hrep := by
    obtain ⟨hinv', hat, hothers⟩ := (outline K).commit trivial hinv hp.1 hc hne hrep
    refine ⟨hinv', ⟨hat, ?_⟩, fun j d hj hd h =>
      ⟨hothers j d hj hd h.1, h.2.commit h.1 hok hc (List.mem_of_getElem? hd) hrep⟩⟩
    obtain ⟨p, n⟩ := c
    cases p with
    | switchUpdate | refreshContext | refreshAccess => exact absurd rfl hne
    | _ => trivial
  outside {s x db} hok hinv h := by
    have heq := outside_refreshTokens h
    obtain ⟨hinv', hat⟩ := (outline K).outside trivial hinv h
    refine ⟨hinv', fun c hc hp => ⟨hat c hc hp.1, ?_⟩⟩
    have hp := hp.2
    unfold Owns Unrevoked Current at hp ⊢
    rwa [heq]

/-! ## A switch, and what follows it -/

/-- **The commit of a switch** that has found the open tokens there are. -/
theorem Switched.of_switch {ids : List Uuid} (h : Owns db (.switching userId root f ids))
    (hrep : (code K).replay ((code K).writes (.switching userId root f ids)) db = some db') :
    Switched f userId root db' := by
  refine ⟨owned_mono (fun _ => knows_commit hrep) h.1, fun k' hk' hf hopen => ?_⟩
  obtain ⟨k, hk, hid, hkopen, hroot⟩ := root_of_switch hrep hk' hopen
  have hkf : k.familyId = f := (RefreshToken.identity_eq hid).2.2.1.trans hf
  exact hroot.resolve_right fun ⟨_, hmissed⟩ => hmissed hkf (h.2 k hk hkf hkopen.2)

theorem Switched.of_commit {ids : List Uuid} {n : ℕ} (hs : (owners K).Holds s)
    (hi : s.calls[i]? = some ⟨.switching userId root f ids, n⟩)
    (hstep : (code K).step s (.commit i) = some t) : Switched f userId root t.db := by
  cases Code.step_cases hstep with
  | commit hc _ _ hrep =>
    obtain rfl := Option.some.inj (hi.symm.trans hc)
    exact .of_switch (hs.at hi).2 hrep

/-- **Any other commit**: a rotation, the start of another family, or one that opens nothing. -/
theorem Switched.commit (h : Switched f userId root s.db) (hc : s.calls[i]? = some c)
    (hcopies : ∀ k, c.pc.copy = some k → s.db.Knows k) (howns : Owns s.db c.pc)
    (hnot : switchesNot f s (.commit i))
    (hrep : (code K).replay ((code K).writes c.pc) s.db = some db') : Switched f userId root db' := by
  refine ⟨owned_mono (fun _ => knows_commit hrep) h.owned, fun k' hk' hf hopen => ?_⟩
  have hother (userId root : Uuid) (ids : List Uuid) : c.pc ≠ .switching userId root f ids := by
    intro hpc
    simp [switchesNot, hc, hpc] at hnot
  cases origin hother hrep hk' hf hopen with
  | before hk hid hkopen hroot =>
    have hkf := (RefreshToken.identity_eq hid).2.2.1.trans hf
    exact hroot.symm.trans (h.tokens _ hk hkf hkopen)
  | @rotated stored _ _ _ k hpc hk'eq hk hid hkopen _ =>
    -- the token that is claimed is still of the university of the copy
    have hcurrent : Current stored s.db := by
      rw [hpc] at howns
      exact howns
    have hknown : s.db.Knows stored := hcopies stored (by rw [hpc]; rfl)
    have hkf := (RefreshToken.identity_eq (hknown.identity_eq hk hid)).2.2.1
    rw [hk'eq] at hf ⊢
    exact (hcurrent k hk hid hkopen).symm.trans (h.tokens k hk (hkf.trans hf) hkopen)
  | started hfamily _ =>
    obtain ⟨k, hk, hkf, -⟩ := h.owned
    exact absurd (hkf.trans hf.symm) (hfamily k hk)

/-- **The step lemma.** -/
theorem Switched.step {l : Label Point Reading Outside} (hs : (owners K).Holds s)
    (h : Switched f userId root s.db) (hnot : switchesNot f s l)
    (hstep : (code K).step s l = some t) : Switched f userId root t.db := by
  rcases hs.db_cases hstep with heq | ⟨i, c, rfl, hc, hat, -, hrep⟩ | ⟨x, -, hx⟩
  · exact heq ▸ h
  · exact h.commit hc hat.1 hat.2 hnot hrep
  · have heq := outside_refreshTokens hx
    exact ⟨heq ▸ h.owned, heq ▸ h.tokens⟩

end Steps

section Runs

variable {s t u v : Sessions Database Point Empty} {i j : ℕ} {l : Label Point Reading Outside}

/-! ## The memberships -/

/-- The user has a university context. -/
def Approved (userId root : Uuid) (db : Database) : Prop :=
  (db.resolveUniversityContext userId (some root)).isSome

theorem directory_exec {w : Write} (h : w.exec db = some db') :
    db'.organizations = db.organizations ∧ db'.memberships = db.memberships := by
  cases w with
  | claim | create | start | claimReset =>
    simp only [Write.exec, Option.ite_none_right_eq_some, Option.map_eq_some_iff] at h
    obtain ⟨-, _, -, rfl⟩ := h
    exact ⟨rfl, rfl⟩
  | revoke | switch | claimResets =>
    obtain ⟨_, -, rfl⟩ := Option.map_eq_some_iff.mp h
    exact ⟨rfl, rfl⟩
  | updatePassword =>
    simp only [Write.exec, Option.ite_none_right_eq_some, Option.some.injEq] at h
    obtain ⟨-, rfl⟩ := h
    exact ⟨rfl, rfl⟩

theorem directory_replay {ws : List Write} (h : (code K).replay ws db = some db') :
    db'.organizations = db.organizations ∧ db'.memberships = db.memberships := by
  induction ws generalizing db with
  | nil =>
    obtain rfl : db = db' := Option.some.inj h
    exact ⟨rfl, rfl⟩
  | cons w ws ih =>
    obtain ⟨db₁, hw, hrest⟩ := Option.bind_eq_some_iff.mp h
    obtain ⟨horganizations, hmemberships⟩ := directory_exec hw
    exact ⟨(ih hrest).1.trans horganizations, (ih hrest).2.trans hmemberships⟩

/-- Nothing but a change of the directory ends it. -/
theorem Approved.step (h : Approved userId root s.db) (hkeeps : keepsMembership userId root s l)
    (hstep : (code K).step s l = some t) : Approved userId root t.db := by
  have hsame {db : Database} (horganizations : db.organizations = s.db.organizations)
      (hmemberships : db.memberships = s.db.memberships) : Approved userId root db := by
    unfold Approved Database.resolveUniversityContext Database.activeRoot? at h ⊢
    rwa [horganizations, hmemberships]
  cases Code.step_cases hstep with
  | call | read | write | rollback => exact h
  | commit _ _ _ hrep => exact hsame (directory_replay hrep).1 (directory_replay hrep).2
  | @outside x db hx =>
    cases x with
    | users =>
      obtain rfl := Option.some.inj hx
      exact hsame rfl rfl
    | directory organizations memberships =>
      obtain rfl := Option.some.inj hx
      exact hkeeps
    | requestReset token =>
      obtain ⟨_, -, rfl⟩ := Option.map_eq_some_iff.mp hx
      exact hsame rfl rfl

/-- **The access token is for the university**, of a user with a membership there. -/
theorem issueAccessToken_root (h : Approved userId root db) {user : User} (huser : user.id = userId) :
    (issueAccessToken db user (some root)).rootOrganizationId = some root := by
  subst huser
  obtain ⟨m, hm⟩ := Option.isSome_iff_exists.mp h
  simp only [issueAccessToken, hm, Option.bind_some]
  have hfound := List.find?_some hm
  simp only [Bool.and_eq_true, Option.any_eq_true, Option.all_some, decide_eq_true_eq] at hfound
  obtain ⟨-, r, hr, rfl⟩ := hfound
  exact hr

/-! ## A refresh -/

/-- **Where a refresh is** that has read an open token of the university, and how it ends: it has
issued tokens for the university, or refused the session. -/
def Refreshes (f userId root : Uuid) : Point → Prop
  | .refreshContext stored user _ | .refreshAccess stored user _ =>
    stored.familyId = f ∧ user.id = userId ∧ stored.activeRootOrganizationId = some root
  | .rotating stored accessToken _ _ => stored.familyId = f
    ∧ stored.activeRootOrganizationId = some root ∧ accessToken.rootOrganizationId = some root
  | .revokeRefreshTokenFamily _ _ answer | .revoking _ answer => answer = .threw .invalidSession
  | .finished answer => answer = .threw .invalidSession
    ∨ ∃ accessToken refreshToken expiresAt,
      answer = .refreshed accessToken refreshToken expiresAt
        ∧ accessToken.rootOrganizationId = some root
  | .failed _ => True
  | _ => False

theorem Refreshes.read {p p' : Point} {x : Reading} (happroved : Approved userId root db)
    (hp : Refreshes f userId root p) (h : p.read K db x = some p') : Refreshes f userId root p' := by
  cases p with
  | refreshContext stored user now =>
    obtain rfl := Option.some.inj h
    obtain ⟨-, rfl, hroot⟩ := id hp
    rw [if_pos (hroot ▸ happroved)]
    exact hp
  | refreshAccess stored user now =>
    obtain rfl := Option.some.inj h
    obtain ⟨hf, huser, hroot⟩ := hp
    exact ⟨hf, hroot, hroot ▸ issueAccessToken_root happroved huser⟩
  | revokeRefreshTokenFamily =>
    obtain rfl := Option.some.inj h
    exact hp
  | rotating | revoking | finished | failed => cases h
  | _ => exact hp.elim

variable (K) in
theorem Refreshes.rolledBack {p : Point} (hp : Refreshes f userId root p) :
    Refreshes f userId root ((code K).rolledBack p) := by
  cases p with
  | rotating | refreshContext | refreshAccess | revokeRefreshTokenFamily | revoking | failed =>
    trivial
  | finished => exact hp
  | _ => exact hp.elim

theorem Refreshes.committed {p : Point} (hp : Refreshes f userId root p)
    (hne : (code K).writes p ≠ []) : Refreshes f userId root ((code K).committed p) := by
  cases p with
  | rotating stored accessToken now x => exact .inr ⟨_, _, _, rfl, hp.2.2⟩
  | revoking => exact .inl hp
  | refreshContext | refreshAccess | revokeRefreshTokenFamily | finished | failed =>
    exact absurd rfl hne
  | _ => exact hp.elim

/-- **The first step of a refresh**, of a token of a switched family. -/
theorem refreshes_start {k : RefreshToken} (h : Switched f userId root db) (hk : k ∈ db.refreshTokens)
    (hf : k.familyId = f) (huser : k.userId = userId) (now : Timestamp) :
    Refreshes f userId root (refreshSession db (some k) now) := by
  rcases refreshSession_cases db k now with heq | ⟨user, hfound, hopen, heq | ⟨-, heq⟩⟩ <;> rw [heq]
  · rfl
  all_goals
    exact ⟨hf, (id_of_user? hfound).trans huser, h.tokens k hk hf hopen⟩

theorem Refreshes.begin {n : ℕ} {token : String} {x : Reading} {k : RefreshToken}
    (h : Switched f userId root s.db) (hk : k ∈ s.db.refreshTokens) (hf : k.familyId = f)
    (huser : k.userId = userId) (hhash : k.tokenHash = K.hashToken token)
    (hi : s.calls[i]? = some ⟨.refreshSession (some token), n⟩)
    (hstep : (code K).step s (.read i x) = some t) :
    ∃ d, t.calls[i]? = some d ∧ Refreshes f userId root d.pc := by
  cases Code.call_cases hi hstep with
  | other hl => exact absurd rfl hl
  | read hread _ ht =>
    refine ⟨_, ht, ?_⟩
    obtain rfl := Option.some.inj hread
    split
    · exact .inl rfl
    · next token' hpresent =>
      obtain rfl := Option.some.inj (Option.filter_eq_some_iff.mp hpresent).1
      have hfind : s.db.refreshTokens.find? (·.tokenHash = k.tokenHash) = some k :=
        s.db.refreshTokens.valid.2.1.find?_eq hk
      rw [← hhash, hfind]
      exact refreshes_start h hk hf huser x.now

/-- **The run of a refresh** of a user who stays a member. -/
theorem Refreshes.run {c : Session Point} (happroved : Approved userId root s.db)
    (hc : s.calls[i]? = some c) (hp : Refreshes f userId root c.pc)
    (hrun : (machine K).Run (fun s l => keepsSwitch s l ∧ keepsMembership userId root s l) s t) :
    Approved userId root t.db ∧ ∃ d, t.calls[i]? = some d ∧ Refreshes f userId root d.pc :=
  Code.follow (J := fun _ p => Refreshes f userId root p)
    (fun {s _ _} (h : Approved userId root s.db) hok hstep => h.step hok.2 hstep)
    (fun happroved _ hp _ hread => hp.read happroved hread)
    (fun _ _ hp _ hne _ => hp.committed hne) (fun hp => hp.rolledBack K)
    (fun _ _ hp _ _ _ => hp) hrun happroved hc hp

/-- **What a committed rotation leaves**: its answer, and the successor. -/
theorem answer_of_rotation {stored : RefreshToken} {accessToken : AccessToken} {now : Timestamp}
    {next : Reading} {n : ℕ} (hi : s.calls[i]? = some ⟨.rotating stored accessToken now next, n⟩)
    (hstep : (code K).step s (.commit i) = some t) :
    t.calls[i]? = some ⟨.finished (.refreshed accessToken next.text stored.expiresAt), 0⟩
      ∧ stored.next K next ∈ t.db.refreshTokens := by
  cases Code.call_cases hi hstep with
  | other hl => exact absurd rfl hl
  | commit _ hrep ht =>
    obtain ⟨_, hrot⟩ := replay_rotation hrep
    obtain ⟨db₁, -, -, hins⟩ := hrot.rows
    exact ⟨ht, (Table.mem_insert hins).mpr (.inr rfl)⟩

/-- **A rotation is accepted** that claims a live token and inserts a new one. -/
theorem rotation_accepted {k : RefreshToken} (hk : k ∈ db.refreshTokens) {now : Timestamp}
    {z : Reading} (hlive : k.Live now) (hclock : k.createdAt ≤ now)
    (huser : (db.user? k.userId).isSome) (hid : ∀ t ∈ db.refreshTokens, t.id ≠ z.id)
    (hfresh : ∀ t ∈ db.refreshTokens, t.tokenHash ≠ K.hashToken z.text)
    (hcreated : z.createdAt < k.expiresAt) :
    ∃ db', (code K).replay [.claim k.id now, .create (k.next K z)] db = some db' := by
  let claimable (t : RefreshToken) : Bool :=
    decide (t.id = k.id) && t.usedAt.isNone && t.revokedAt.isNone && decide (now < t.expiresAt)
  have hany : db.refreshTokens.rows.any claimable :=
    List.any_eq_true.mpr ⟨k, hk, by simp [claimable, hlive.1, hlive.2.1, hlive.2.2]⟩
  have hclaim : (db.refreshTokens.update claimable fun t => { t with usedAt := some now }).isSome := by
    refine (update_isSome_iff (g := fun t => { t with usedAt := some now }) (fun _ => rfl)
      fun _ => rfl).mpr fun t ht hp => ?_
    obtain ⟨hexpiry, -, hrevoked⟩ := db.refreshTokens.valid.2.2 t ht
    simp only [claimable, Bool.and_eq_true, decide_eq_true_eq] at hp
    obtain rfl := db.refreshTokens.valid.1.eq ht hk hp.1.1.1
    refine ⟨hexpiry, fun usedAt hused => ?_, hrevoked⟩
    obtain rfl := Option.some.inj hused
    exact ⟨hclock, hp.2.le⟩
  obtain ⟨ts, hts⟩ := Option.isSome_iff_exists.mp hclaim
  have hinsert : (ts.insert (k.next K z)).isSome := by
    have hrow (t : RefreshToken) (ht : t ∈ ts) :
        ∃ v ∈ db.refreshTokens, v.id = t.id ∧ v.tokenHash = t.tokenHash := by
      obtain ⟨v, hv, rfl⟩ := (Table.mem_update hts).mp ht
      refine ⟨v, hv, ?_⟩
      split <;> exact ⟨rfl, rfl⟩
    refine insert_isSome (fun t ht heq => ?_) (fun t ht heq => ?_) ⟨hcreated, nofun, nofun⟩
    · obtain ⟨v, hv, hvid, -⟩ := hrow t ht
      exact hid v hv (hvid.trans heq)
    · obtain ⟨v, hv, -, hvhash⟩ := hrow t ht
      exact hfresh v hv (hvhash.trans heq)
  obtain ⟨ts', hts'⟩ := Option.isSome_iff_exists.mp hinsert
  have hexec : Write.exec (.claim k.id now) db = some { db with refreshTokens := ts } := by
    rw [Write.exec, if_pos hany, hts, Option.map_some]
  have hcreate : Write.exec (.create (k.next K z)) { db with refreshTokens := ts }
      = some { db with refreshTokens := ts' } := by
    have huser' : (Database.user? { db with refreshTokens := ts } (k.next K z).userId).isSome := huser
    rw [Write.exec, if_pos huser', hts', Option.map_some]
  refine ⟨{ db with refreshTokens := ts' }, ?_⟩
  simp [code, hexec, hcreate]

/-- **A refresh by itself** of a live token of a verified user who is a member: it issues tokens for
the token's university. -/
theorem refresh_alone {k : RefreshToken} (hk : k ∈ db.refreshTokens) {token : String}
    (htoken : token ≠ "") (hhash : k.tokenHash = K.hashToken token) {x y z w : Reading}
    (hlive : k.Live x.now) (hclock : k.createdAt ≤ x.now) {user : User}
    (huser : db.user? k.userId = some user) (hactive : user.status = .active)
    (hverified : user.emailVerifiedAt.isSome) (hroot : k.activeRootOrganizationId = some root)
    (happroved : Approved user.id root db) (hid : ∀ t ∈ db.refreshTokens, t.id ≠ z.id)
    (hfresh : ∀ t ∈ db.refreshTokens, t.tokenHash ≠ K.hashToken z.text)
    (hcreated : z.createdAt < k.expiresAt) :
    ∃ db', (code K).alone [x, y, z, w] (db, .refreshSession (some token))
        = (db', .finished (.refreshed (issueAccessToken db user (some root)) z.text k.expiresAt))
      ∧ k.next K z ∈ db'.refreshTokens := by
  have hlookup : (Point.refreshSession (some token)).read K db x
      = some (.refreshContext k user x.now) := by
    have hpresent : present (some token) = some token := Option.filter_eq_some_iff.mpr
      ⟨rfl, decide_eq_true htoken⟩
    have hfind : db.refreshTokens.find? (·.tokenHash = K.hashToken token) = some k :=
      hhash ▸ db.refreshTokens.valid.2.1.find?_eq hk
    simp [Point.read, hpresent, hfind, refreshSession, huser, hlive.1, hlive.2.1, hlive.2.2, hactive,
      Option.isSome_iff_ne_none.mp hverified, hroot]
  have hcontext : (Point.refreshContext k user x.now).read K db y
      = some (.refreshAccess k user x.now) := by
    rw [Point.read, if_pos (hroot ▸ happroved)]
  have haccess : (Point.refreshAccess k user x.now).read K db z
      = some (.rotating k (issueAccessToken db user (some root)) x.now z) := by
    rw [Point.read, hroot]
  obtain ⟨db', hrep⟩ := rotation_accepted hk hlive hclock (by rw [huser]; rfl) hid hfresh hcreated
  obtain ⟨_, hrot⟩ := replay_rotation hrep
  obtain ⟨db₁, -, -, hins⟩ := hrot.rows
  refine ⟨db', ?_, (Table.mem_insert hins).mpr (.inr rfl)⟩
  rw [Code.alone_cons, Code.solo_read rfl hlookup, Code.alone_cons, Code.solo_read rfl hcontext,
    Code.alone_cons, Code.solo_read rfl haccess, Code.alone_cons,
    Code.solo_commit (by simp [code]) hrep, Code.alone_nil]
  rfl

/-- **A switch is not lost** in a run in which no switch commits while a call is on its way to
rotating an open token of its family that it has read as another university's, and none of its
family's rotations commits between its snapshot and its commit.  Once the switch has committed, and
until another switch of the family commits, each refresh that begins with a token of the family, of a
user who stays a member, answers with an access token for the university and a refresh token that is
a row of the family for the university, or refuses the session; and it does answer with tokens if its
token is live and its user verified, and it is not disturbed. -/
theorem switch_not_lost (hs : (machine K).Reachable (fun s l => keepsSwitch s l) s) {ids : List Uuid}
    {m n : ℕ} (hj : s.calls[j]? = some ⟨.switching userId root f ids, m⟩)
    (hkeeps : keepsSwitch s (.commit j)) (hstep : (machine K).step s (.commit j) = some t)
    (happroved : Approved userId root t.db)
    (hrun : (machine K).Run
      (fun s l => keepsSwitch s l ∧ switchesNot f s l ∧ keepsMembership userId root s l) t u)
    {token : String} (hi : u.calls[i]? = some ⟨.refreshSession (some token), n⟩) {k : RefreshToken}
    (hk : k ∈ u.db.refreshTokens) (hhash : k.tokenHash = K.hashToken token) (hf : k.familyId = f) :
    (∀ x u' v, (machine K).step u (.read i x) = some u' →
        (machine K).Run (fun s l => keepsSwitch s l ∧ keepsMembership userId root s l) u' v →
        (∀ answer m, v.calls[i]? = some ⟨.finished answer, m⟩ → answer = .threw .invalidSession
          ∨ ∃ accessToken refreshToken expiresAt,
            answer = .refreshed accessToken refreshToken expiresAt
              ∧ accessToken.rootOrganizationId = some root)
        ∧ ∀ stored accessToken now next m w,
          v.calls[i]? = some ⟨.rotating stored accessToken now next, m⟩ →
          (machine K).step v (.commit i) = some w →
            accessToken.rootOrganizationId = some root
            ∧ w.calls[i]? = some ⟨.finished (.refreshed accessToken next.text stored.expiresAt), 0⟩
            ∧ ∃ k' ∈ w.db.refreshTokens, k'.tokenHash = K.hashToken next.text ∧ k'.familyId = f
              ∧ k'.activeRootOrganizationId = some root)
      ∧ ∀ x y z z' user, token ≠ "" → k.Live x.now → k.createdAt ≤ x.now →
        u.db.user? userId = some user → user.status = .active → user.emailVerifiedAt.isSome →
        (∀ t ∈ u.db.refreshTokens, t.id ≠ z.id ∧ t.tokenHash ≠ K.hashToken z.text) →
        z.createdAt < k.expiresAt →
          ∃ db' accessToken, (code K).alone [x, y, z, z'] (u.db, .refreshSession (some token))
              = (db', .finished (.refreshed accessToken z.text k.expiresAt))
            ∧ accessToken.rootOrganizationId = some root
            ∧ ∃ k' ∈ db'.refreshTokens, k'.tokenHash = K.hashToken z.text ∧ k'.familyId = f
              ∧ k'.activeRootOrganizationId = some root := by
  have hholds : (owners K).Holds s := Code.Outline.holds_of_reachable (fun _ => id) hs
  have hstep' : (code K).step s (.commit j) = some t := hstep
  have hholds' : (owners K).Holds t := hholds.step hkeeps hstep'
  -- up to the refresh
  have hlater : (owners K).Holds u ∧ Switched f userId root u.db ∧ Approved userId root u.db :=
    hrun.invariant (I := fun s => (owners K).Holds s ∧ Switched f userId root s.db
        ∧ Approved userId root s.db) ⟨hholds', .of_commit hholds hj hstep', happroved⟩
      fun ⟨hs, h, hin⟩ hok hstep =>
        ⟨hs.step hok.1 hstep, h.step hs hok.2.1 hstep, hin.step hok.2.2 hstep⟩
  obtain ⟨houtline, hswitched, happroved⟩ := hlater
  have huser : k.userId = userId := by
    obtain ⟨k₀, hk₀, hf₀, huser₀⟩ := hswitched.owned
    exact (houtline.inv k hk k₀ hk₀ (hf.trans hf₀.symm)).trans huser₀
  refine ⟨fun x u' v hstart hrest => ?_, fun x y z z' user htoken hlive hclock hfound hactive
    hverified hfresh hcreated => ?_⟩
  · have hstart' : (code K).step u (.read i x) = some u' := hstart
    obtain ⟨d, hd, hat⟩ := Refreshes.begin hswitched hk hf huser hhash hi hstart'
    have happroved' : Approved userId root u'.db := happroved.step (l := .read i x) rfl hstart'
    obtain ⟨-, c, hc, hat⟩ := Refreshes.run happroved' hd hat hrest
    refine ⟨fun answer m hend => ?_, fun stored accessToken now next m w hcall hcommit => ?_⟩
    · obtain rfl := Option.some.inj (hc.symm.trans hend)
      exact hat
    · obtain rfl := Option.some.inj (hc.symm.trans hcall)
      obtain ⟨hfamily, hroot, haccess⟩ := hat
      obtain ⟨hw, hnext⟩ := answer_of_rotation hcall hcommit
      exact ⟨haccess, hw, stored.next K next, hnext, rfl, hfamily, hroot⟩
  · have hid : user.id = userId := id_of_user? hfound
    have hroot := hswitched.tokens k hk hf ⟨hlive.1, hlive.2.1⟩
    obtain ⟨db', halone, hnext⟩ := refresh_alone (y := y) (w := z') hk htoken hhash hlive hclock
      (huser ▸ hfound) hactive hverified hroot (hid ▸ happroved) (fun t ht => (hfresh t ht).1)
      (fun t ht => (hfresh t ht).2) hcreated
    exact ⟨db', _, halone, issueAccessToken_root happroved hid, k.next K z, hnext, rfl, hf, hroot⟩

end Runs

/-! ## Two universities -/

/-- The token of a session at the first university. -/
def atFirst : RefreshToken where
  id := 1
  userId := 10
  familyId := 7
  activeRootOrganizationId := some 1
  tokenHash := "a"
  expiresAt := 100
  createdAt := 0

/-- A verified user who is a member of two universities, with a session at the first. -/
def twoUniversities : Sessions Database Point Empty where
  db :=
    { users := [{ id := 10, emailVerifiedAt := some 0 }]
      organizations := [⟨1, none, 1, .active⟩, ⟨2, none, 2, .active⟩]
      memberships := [{ id := 31, userId := 10, organizationId := 1, status := .approved },
        { id := 32, userId := 10, organizationId := 2, status := .approved }]
      refreshTokens := ⟨[atFirst], by decide⟩
      passwordResetTokens := oneSession.db.passwordResetTokens }
  history := []
  calls := []

theorem twoUniversities_init : (machine plain).init twoUniversities := by
  refine ⟨fun t ht t' ht' _ => ?_, rfl, rfl⟩
  rw [List.mem_singleton.mp ht, List.mem_singleton.mp ht']

/-- A switch to the second university up to its update. -/
def switchingTo (i : ℕ) (token : String) : List (Label Point Reading Outside) :=
  [.call (.switchActiveUniversity 10 2 (some token)), .read i {}, .read i {}]

/-- A refresh after its look-up, up to its commit. -/
def refreshing (i : ℕ) (next : Reading) : List (Label Point Reading Outside) :=
  [.read i {}, .read i next, .write i, .write i]

/-- The runs after the switch. -/
def afterSwitch (s : Sessions Database Point Empty) (l : Label Point Reading Outside) : Bool :=
  keepsSwitch s l && switchesNot 7 s l && keepsMembership 10 2 s l

/-- What a user is given who is a member of the university of the same id. -/
def accessTo (root : Uuid) : AccessToken := ⟨10, "", some root, some root, some .member⟩

/-- A rotation commits between the look-up of a switch and its update, and the next refresh issues
tokens for the second university. -/
theorem switch_not_lost_of_one : ∃ w, (machine plain).Reachable Machine.free w
    ∧ w.calls[2]? = some ⟨.finished (.refreshed (accessTo 2) "c" 100), 0⟩
    ∧ (accessTo 2).rootOrganizationId = some 2
    ∧ ∃ k ∈ w.db.refreshTokens, k.tokenHash = "c" ∧ k.familyId = 7
      ∧ k.activeRootOrganizationId = some 2 := by
  let stored : RefreshToken :=
    { atFirst with id := 2, tokenHash := "b", createdAt := 2, activeRootOrganizationId := some 2 }
  let next : Reading := { id := 3, text := "c", createdAt := 5 }
  obtain ⟨s, ⟨s₀, hs₀, hrun⟩, hp⟩ := (machine plain).exists_reachable_guarded
    (s := twoUniversities) (p := keepsSwitch)
    (q := fun s => decide (s.calls[0]? = some (⟨.switching 10 2 7 [1, 2], 1⟩ : Session Point))
      && keepsSwitch s (.commit 0)
      && ((machine plain).step s (.commit 0)).any fun t =>
        (t.db.resolveUniversityContext 10 (some 2)).isSome
        && (((machine plain).guarded afterSwitch).exec t
            [.read 0 {}, .call (.refreshSession (some "b"))]).any fun u =>
          isAt 2 (.refreshSession (some "b")) u && decide (stored ∈ u.db.refreshTokens.rows)
          && ((machine plain).step u (.read 2 { now := 4 })).any fun u' =>
            (((machine plain).guarded afterSwitch).exec u' (refreshing 2 next)).any fun v =>
              decide (v.calls[2]?
                = some (⟨.rotating stored (accessTo 2) 4 next, 2⟩ : Session Point))
              && ((machine plain).step v (.commit 2)).isSome)
    (switchingTo 0 "a" ++ [.call (.refreshSession (some "a")), .read 1 { now := 1 }]
      ++ refreshing 1 { id := 2, text := "b", createdAt := 2 } ++ [.commit 1, .read 0 {}, .write 0])
    twoUniversities_init (by decide)
  simp only [Bool.and_eq_true, decide_eq_true_eq, Option.any_eq_true] at hp
  obtain ⟨⟨hj, hkeeps⟩, t, hstep, happroved, u, hu, ⟨hi, hk⟩, u', hstart, v, hv, hcall, hcommit⟩ := hp
  obtain ⟨w, hw⟩ := Option.isSome_iff_exists.mp hcommit
  have hafter : (machine plain).Run
      (fun s l => keepsSwitch s l ∧ switchesNot 7 s l ∧ keepsMembership 10 2 s l) t u :=
    (Machine.run_of_guarded (Machine.run_of_exec _ hu)).mono fun s l h => by
      simpa only [afterSwitch, Bool.and_eq_true, and_assoc] using h
  have hrest : (machine plain).Run (fun s l => keepsSwitch s l ∧ keepsMembership 10 2 s l) u' v :=
    (Machine.run_of_guarded (Machine.run_of_exec _ hv)).mono fun s l h => by
      simp only [afterSwitch, Bool.and_eq_true] at h
      exact ⟨h.1.1, h.2⟩
  have hreach : (machine plain).Reachable Machine.free w :=
    ⟨s₀, hs₀, ((((hrun.mono fun _ _ _ => trivial).tail trivial hstep).trans
      (hafter.mono fun _ _ _ => trivial)).tail trivial hstart).trans
        (hrest.mono fun _ _ _ => trivial) |>.tail trivial hw⟩
  obtain ⟨haccess, hend, hrow⟩ := ((switch_not_lost ⟨s₀, hs₀, hrun⟩ hj hkeeps hstep happroved hafter
    (of_decide_eq_true hi) hk rfl rfl).1 _ u' v hstart hrest).2 _ _ _ _ _ w hcall hw
  exact ⟨w, hreach, hend, haccess, hrow⟩

/-- **A switch is lost to a refresh in flight**: the refresh has read its token before the switch,
and inserts the successor after the switch has returned.  The next refresh of the family begins with
it, and is answered with tokens for the first university. -/
theorem switch_lost : ∃ t, (machine plain).Reachable Machine.free t
    ∧ t.calls.map (·.pc)
      = [.refreshAccess atFirst { id := 10, emailVerifiedAt := some 0 } 1, .finished .returned]
    ∧ ∃ u, (machine plain).Run (fun s l => switchesNot 7 s l = true) t u
      ∧ u.calls.map (·.pc) = [.finished (.refreshed (accessTo 1) "b" 100), .finished .returned,
        .refreshSession (some "b")]
      ∧ ∃ v, (machine plain).Run (fun s l => switchesNot 7 s l = true) u v
        ∧ v.calls.map (·.pc) = [.finished (.refreshed (accessTo 1) "b" 100), .finished .returned,
          .finished (.refreshed (accessTo 1) "c" 100)]
        ∧ Approved 10 2 v.db ∧ (accessTo 1).rootOrganizationId = some 1
        ∧ ∃ k ∈ v.db.refreshTokens, k.tokenHash = "c" ∧ k.activeRootOrganizationId = some 1 := by
  obtain ⟨t, ht, hp⟩ := (machine plain).exists_reachable (s := twoUniversities)
    (p := fun t => decide (t.calls.map (·.pc)
        = [.refreshAccess atFirst { id := 10, emailVerifiedAt := some 0 } 1, .finished .returned])
      && (((machine plain).guarded (switchesNot 7)).exec t
          [.read 0 { id := 2, text := "b", createdAt := 3 }, .write 0, .write 0, .commit 0,
            .call (.refreshSession (some "b"))]).any fun u =>
        decide (u.calls.map (·.pc) = [.finished (.refreshed (accessTo 1) "b" 100),
          .finished .returned, .refreshSession (some "b")])
        && (((machine plain).guarded (switchesNot 7)).exec u
            (.read 2 { now := 4 } :: refreshing 2 { id := 3, text := "c", createdAt := 4 }
              ++ [.commit 2])).any fun v =>
          decide (v.calls.map (·.pc) = [.finished (.refreshed (accessTo 1) "b" 100),
            .finished .returned, .finished (.refreshed (accessTo 1) "c" 100)])
          && (v.db.resolveUniversityContext 10 (some 2)).isSome
          && v.db.refreshTokens.rows.any fun k => decide (k.tokenHash = "c")
            && decide (k.activeRootOrganizationId = some 1))
    ([.call (.refreshSession (some "a")), .read 0 { now := 1 }, .read 0 {}]
      ++ switchingTo 1 "a" ++ [.read 1 {}, .write 1, .commit 1, .read 1 {}])
    twoUniversities_init (by decide)
  simp only [Bool.and_eq_true, decide_eq_true_eq, Option.any_eq_true, List.any_eq_true] at hp
  obtain ⟨hcalls, u, hu, hcalls', v, hv, ⟨hcalls'', happroved⟩, k, hk, hhash, hroot⟩ := hp
  exact ⟨t, ht, hcalls, u, Machine.run_of_guarded (Machine.run_of_exec _ hu), hcalls', v,
    Machine.run_of_guarded (Machine.run_of_exec _ hv), hcalls'', happroved, rfl, k, hk, hhash, hroot⟩

end ResourceHive.Sessions
