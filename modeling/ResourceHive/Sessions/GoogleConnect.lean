import ResourceHive.Sessions.SignInMethods

/-!
# Sessions/GoogleConnect — what a callback that reports a connection has connected

Whoever owns the subject is looked up twice before the upsert, and the upsert is by the subject: if
another user's identity with it comes in between, that row is what it updates.  A callback that
returns the redirect for a connected account has therefore connected it exactly if no other user owned
the subject at the upsert (`connected_iff`).
-/

namespace ResourceHive.Sessions.GoogleSignIn

variable {G : Configuration} {db db' : Database} {userId : Uuid} {identity : GoogleIdentity}

/-- A user owns a subject. -/
def Database.Owns (db : Database) (userId : Uuid) (subject : String) : Prop :=
  ∃ r ∈ db.externalIdentities, r.userId = userId ∧ r.providerSubject = subject

/-- **A write connects**: the user owns the subject after it, and every identity of another user is
what it was. -/
def Connects (db db' : Database) (userId : Uuid) (subject : String) : Prop :=
  db'.Owns userId subject ∧
    ∀ r ∈ db.externalIdentities, r.userId ≠ userId → r ∈ db'.externalIdentities

/-- No other user owns the subject. -/
def Available (db : Database) (userId : Uuid) (subject : String) : Prop :=
  ∀ r ∈ db.externalIdentities, r.providerSubject = subject → r.userId = userId

/-! ## The upsert -/

/-- An insert connects. -/
theorem connects_insert {row : ExternalIdentity} (h : db.insertIdentity row = some db') :
    Connects db db' row.userId row.providerSubject := by
  have hmem := mem_insertIdentity h
  simp only [Database.insertIdentity, Option.ite_none_right_eq_some, Option.map_eq_some_iff] at h
  obtain ⟨-, T, hT, rfl⟩ := h
  exact ⟨⟨row, hmem, rfl, rfl⟩, fun r hr _ => (Table.mem_insert hT).mpr (.inl hr)⟩

/-- **The upsert** connects exactly if the row that it finds, if it finds one, is the user's. -/
theorem connects_upsert_iff {row : ExternalIdentity} {now : Timestamp}
    (h : (Statement.upsertIdentity row now).exec db = some db') :
    Connects db db' row.userId row.providerSubject ↔
      Available db row.userId row.providerSubject := by
  simp only [Statement.exec] at h
  split at h
  · next hsome =>
    obtain ⟨found, hfound⟩ := Option.isSome_iff_exists.mp hsome
    obtain ⟨hmem, hsubject⟩ := mem_of_identity? hfound
    obtain ⟨T, hT, rfl⟩ := Option.map_eq_some_iff.mp h
    have hsame (r : ExternalIdentity) (hr : r ∈ db.externalIdentities)
        (hsub : r.providerSubject = row.providerSubject) : r = found :=
      db.externalIdentities.valid.2.1.eq hr hmem (hsub.trans hsubject.symm)
    constructor
    · rintro ⟨⟨r', hr', huser, hsub⟩, -⟩ r hr hrsub
      obtain ⟨r₀, hr₀, rfl⟩ := (Table.mem_update hT).mp hr'
      have hkey : (if decide (r₀.providerSubject = row.providerSubject) = true then
          r₀.use row.providerEmail now else r₀).key = r₀.key := by
        split <;> rfl
      obtain ⟨-, hu, hs⟩ := ExternalIdentity.key_eq hkey
      rw [hsame r hr hrsub, ← hsame r₀ hr₀ (hs.symm.trans hsub), ← hu]
      exact huser
    · intro havailable
      refine ⟨⟨found.use row.providerEmail now, (Table.mem_update hT).mpr ⟨found, hmem, ?_⟩,
        havailable found hmem hsubject, hsubject⟩, fun r hr hne => ?_⟩
      · rw [if_pos (decide_eq_true hsubject)]
      · refine (Table.mem_update hT).mpr ⟨r, hr, ?_⟩
        have hother : r.providerSubject ≠ row.providerSubject := fun hsub =>
          hne (havailable r hr hsub)
        rw [if_neg (by simpa using hother)]
  · next hnone =>
    refine iff_of_true (connects_insert h) fun r hr hsub => absurd ?_ hnone
    exact List.find?_isSome.mpr ⟨r, hr, decide_eq_true hsub⟩

/-! ## Where only the upsert leads

Not a read, and not a rollback. -/

theorem read_ne_connected {x : Reading} {p : Point} :
    p.read G db x ≠ some (.connected userId identity) := by
  intro h
  cases p with
  | account p =>
    obtain ⟨_, -, h⟩ := Option.map_eq_some_iff.mp h
    cases h
  | register email =>
    have h := Option.some.inj h
    unfold register at h
    split at h
    · cases h
    · dsimp only at h
      split at h <;> cases h
  | hashPassword email =>
    have h := Option.some.inj h
    split at h <;> cases h
  | completeGoogleCallback flow state verified =>
    have h := Option.some.inj h
    unfold completeGoogleCallback afterLookup at h
    repeat' split at h
    all_goals cases h
  | connectUser u verified =>
    have h := Option.some.inj h
    unfold connectUser at h
    split at h
    · cases h
    · split at h <;> cases h
  | connectOther u verified =>
    have h := Option.some.inj h
    unfold connectOther at h
    split at h <;> cases h
  | emailOwner verified =>
    have h := Option.some.inj h
    split at h <;> cases h
  | racedIdentity verified =>
    have h := Option.some.inj h
    unfold racedIdentity at h
    split at h
    · cases h
    · split at h <;> cases h
  | session verified row next p =>
    rcases read_session h with ⟨_, _, _, -, h⟩ | ⟨_, -, h⟩ <;> cases h
  | disconnectGoogle u password =>
    have h := Option.some.inj h
    split at h <;> cases h
  | findConnected u =>
    have h := Option.some.inj h
    split at h <;> cases h
  | requestPasswordSetup u =>
    have h := Option.some.inj h
    unfold requestPasswordSetup at h
    split at h
    · cases h
    · split at h <;> cases h
  | registerTransaction | registering | registered | connecting | connected | signingIn | signingUp
  | signedIn | disconnecting | disconnected | threw | failed => cases h

theorem eq_connected_of_rolledBack {p : Point}
    (h : (code G).rolledBack p = .connected userId identity) : p = .connected userId identity := by
  cases p with
  | connected => exact h
  | account | register | hashPassword | registerTransaction | registering | registered
  | completeGoogleCallback | connectUser | connectOther | connecting | signingIn | emailOwner
  | signingUp | racedIdentity | session | signedIn | disconnectGoogle | findConnected
  | disconnecting | disconnected | requestPasswordSetup | threw | failed => cases h

/-- The commit after which a callback reports a connection is its upsert's. -/
theorem eq_connecting_of_committed {p : Point}
    (h : (code G).committed p = .connected userId identity) (hne : p ≠ .connected userId identity) :
    ∃ x, p = .connecting userId identity x := by
  cases p with
  | connecting u verified x =>
    cases h
    exact ⟨x, rfl⟩
  | connected => exact absurd h hne
  | account | register | hashPassword | registerTransaction | registering | registered
  | completeGoogleCallback | connectUser | connectOther | signingIn | emailOwner
  | signingUp | racedIdentity | session | signedIn | disconnectGoogle | findConnected
  | disconnecting | disconnected | requestPasswordSetup | threw | failed => cases h

/-- **A connection that is reported.**  In every run to a state in which a callback for a user and a
subject has returned the redirect for a connected account, there is its final write, the commit of its
upsert; and that has connected the subject to the user, leaving the identities of the others alone,
exactly if no other user owned the subject then. -/
theorem connected_iff {s t : Sessions Database Point ExternalIdentity} (hs : (machine G).init s)
    {ls : List (Label Point Reading Outside)} (h : (machine G).exec s ls = some t) {i n : ℕ}
    (hc : t.calls[i]? = some ⟨.connected userId identity, n⟩) :
    ∃ ls₁ ls₂ u v x m, ls = ls₁ ++ .commit i :: ls₂ ∧ (machine G).exec s ls₁ = some u
      ∧ u.calls[i]? = some ⟨.connecting userId identity x, m⟩
      ∧ (machine G).step u (.commit i) = some v ∧ (machine G).exec v ls₂ = some t
      ∧ (Connects u.db v.db userId identity.subject ↔
        Available u.db userId identity.subject) := by
  obtain ⟨ls₁, ls₂, u, v, ⟨pc, m⟩, rfl, hu, hd, hcommitted, hne, hcommit, hv⟩ :=
    Code.exists_commit (C := code G) (Q := fun p => p = .connected userId identity)
      (fun {p} hentry hp => by rw [hp] at hentry; cases hentry)
      (fun hread hp => (read_ne_connected (hp ▸ hread)).elim) eq_connected_of_rolledBack hs h hc rfl
  obtain ⟨x, rfl⟩ := eq_connecting_of_committed hcommitted hne
  refine ⟨ls₁, ls₂, u, v, x, m, rfl, hu, hd, hcommit, hv, ?_⟩
  cases Code.call_cases hd hcommit with
  | other hl => exact absurd rfl hl
  | commit _ hrep _ => exact connects_upsert_iff (exec_of_replay hrep)

/-! ## Two users connect one Google account -/

/-- Two users with passwords. -/
def twoAccounts : Sessions Database Point ExternalIdentity :=
  { noAccounts with
    db := { noAccounts.db with
      users := [{ id := 10, email := "a", passwordHash := some "pw" },
        { id := 11, email := "b", passwordHash := some "pw" }] } }

theorem init_twoAccounts : (machine sampleConfiguration).init twoAccounts :=
  ⟨⟨by decide, fun u hu => .inl (by revert u; decide)⟩, rfl, rfl⟩

/-- A callback by which a user connects the account. -/
def connect (userId : Uuid) (email : String) : Point :=
  .completeGoogleCallback (some { purpose := .connect, state := "st", userId := some userId }) "st"
    (some ⟨"s", email⟩)

/-- **The first who connects the account has connected it.** -/
theorem connected_iff_of_first : ∃ ls t, (machine sampleConfiguration).exec twoAccounts ls = some t
    ∧ t.calls[0]? = some ⟨.connected 10 ⟨"s", "a"⟩, 0⟩
    ∧ ∃ ls₁ ls₂ u v, ls = ls₁ ++ .commit 0 :: ls₂
      ∧ (machine sampleConfiguration).exec twoAccounts ls₁ = some u
      ∧ (machine sampleConfiguration).exec v ls₂ = some t
      ∧ (Connects u.db v.db 10 "s" ↔ Available u.db 10 "s") := by
  let ls : List (Label Point Reading Outside) := [.call (connect 10 "a"), .read 0 {}, .read 0 {},
    .read 0 { id := 20 }, .write 0, .commit 0]
  have hany : ((machine sampleConfiguration).exec twoAccounts ls).any (fun t =>
      decide (t.calls[0]? = some ⟨.connected 10 ⟨"s", "a"⟩, 0⟩)) = true := by decide
  obtain ⟨t, ht, hc⟩ := (Option.any_eq_true _ _).mp hany
  have hc := of_decide_eq_true hc
  obtain ⟨ls₁, ls₂, u, v, x, m, hls, hu, -, -, hv, hiff⟩ := connected_iff init_twoAccounts ht hc
  exact ⟨ls, t, ht, hc, ls₁, ls₂, u, v, hls, hu, hv, hiff⟩

/-- The account is the first user's, and the second is about to connect it. -/
def overtaken (s : Sessions Database Point ExternalIdentity) : Bool :=
  decide (s.calls[1]? = some ⟨.connecting 11 ⟨"s", "b"⟩ { id := 21, now := 2 }, 1⟩)
    && decide (s.db.externalIdentities.rows = [⟨20, 10, "s", "a", none⟩])
    && ((machine sampleConfiguration).step s (.commit 1)).any fun t =>
      decide (t.calls[1]? = some ⟨.connected 11 ⟨"s", "b"⟩, 0⟩)
        && decide (t.db.externalIdentities.rows = [⟨20, 10, "s", "b", some 2⟩])

/-- **The second is told that the account is connected**, and what their callback has written is the
row of the first. -/
theorem connected_to_another : ∃ s t, (machine sampleConfiguration).Reachable Machine.free s
    ∧ s.calls[1]? = some ⟨.connecting 11 ⟨"s", "b"⟩ { id := 21, now := 2 }, 1⟩
    ∧ (machine sampleConfiguration).step s (.commit 1) = some t
    ∧ t.calls[1]? = some ⟨.connected 11 ⟨"s", "b"⟩, 0⟩
    ∧ ¬ t.db.Owns 11 "s"
    ∧ ∃ r ∈ s.db.externalIdentities, r.userId = 10 ∧ r ∉ t.db.externalIdentities := by
  obtain ⟨s, hs, hp⟩ := (machine sampleConfiguration).exists_reachable (s := twoAccounts)
    (p := overtaken)
    [.call (connect 10 "a"), .call (connect 11 "b"), .read 0 {}, .read 1 {}, .read 0 {}, .read 1 {},
      .read 0 { id := 20 }, .read 1 { id := 21, now := 2 }, .write 0, .commit 0, .write 1]
    init_twoAccounts (by decide)
  simp only [overtaken, Bool.and_eq_true, decide_eq_true_eq] at hp
  obtain ⟨⟨hc, hrows⟩, hstep⟩ := hp
  obtain ⟨t, ht, hafter⟩ := (Option.any_eq_true _ _).mp hstep
  simp only [Bool.and_eq_true, decide_eq_true_eq] at hafter
  obtain ⟨hc', hrows'⟩ := hafter
  refine ⟨s, t, hs, hc, ht, hc', ?_, ⟨20, 10, "s", "a", none⟩, ?_, rfl, ?_⟩
  · rintro ⟨r, hr, huser, -⟩
    rw [← Table.mem_rows, hrows', List.mem_singleton] at hr
    rw [hr] at huser
    cases huser
  · rw [← Table.mem_rows, hrows]
    exact List.mem_cons_self
  · rw [← Table.mem_rows, hrows']
    decide

end ResourceHive.Sessions.GoogleSignIn
