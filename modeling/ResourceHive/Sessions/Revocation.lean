import ResourceHive.Sessions.Families

/-!
# Sessions/Revocation — whether a revoked family stays revoked

A revocation is final if its update reaches every unrevoked token there is when it is applied.  It
misses those that a rotation has inserted since its snapshot, and it is rejected as a whole if one of
its rows was created after the time it writes, which was read before the snapshot.  A refresh whose
token has been used since its look-up revokes nothing.  A call that none of the three happens to
(`undisturbed`) has ended the family when it ends (`revocation_final`).
-/

namespace ResourceHive.Sessions

variable {K : Crypto} {db db' : Database} {f : Uuid}

/-! ## What a revocation reaches -/

/-- The revocation a call is about to commit. -/
def Point.revocation : Point → Option Revocation
  | .revoking r _ | .resetting _ _ _ r => some r
  | _ => none

variable {r : Revocation}

/-- The other statements of a revocation's transaction leave the refresh tokens alone. -/
theorem replay_revocation {p : Point} (hr : p.revocation = some r)
    (h : (code K).replay ((code K).writes p) db = some db') :
    db.refreshTokens.update r.hits r.apply = some db'.refreshTokens := by
  cases p with
  | revoking r' answer =>
    obtain rfl := Option.some.inj hr
    obtain ⟨db₁, hrevoke, h⟩ := Option.bind_eq_some_iff.mp h
    obtain rfl : db₁ = db' := Option.some.inj h
    obtain ⟨ts, hts, rfl⟩ := Option.map_eq_some_iff.mp hrevoke
    exact hts
  | resetting stored passwordHash resetIds r' =>
    obtain rfl := Option.some.inj hr
    simp only [code, Code.replay_cons, Code.replay_nil, Option.bind_eq_some_iff, Write.exec,
      Option.ite_none_right_eq_some, Option.map_eq_some_iff, Option.some.injEq] at h
    obtain ⟨_, ⟨-, _, -, rfl⟩, _, ⟨-, rfl⟩, _, ⟨_, -, rfl⟩, _, ⟨ts, hts, rfl⟩, rfl⟩ := h
    exact hts
  | login | loginCompare | createSessionForUser | sessionAccess | issuing | refreshSession
  | refreshContext | refreshAccess | rotating | revokeSession | revokeRefreshTokenFamily
  | switchActiveUniversity | switchFind | switchUpdate | switching | switchUser | resetPassword
  | resetTransaction | finished | failed => cases hr

/-- **A revocation that has found each unrevoked token of the family ends it.** -/
theorem Dead.of_revocation {p : Point} (hr : p.revocation = some r)
    (hf : ∃ t ∈ db.refreshTokens, t.familyId = f)
    (hcovers : ∀ t ∈ db.refreshTokens, t.familyId = f → r.scope.covers t)
    (hfound : Unrevoked f (fun t => t.id ∈ r.ids) db)
    (hrep : (code K).replay ((code K).writes p) db = some db') : Dead f db' := by
  have hupdate := replay_revocation hr hrep
  constructor
  · obtain ⟨t, ht, htf⟩ := hf
    refine ⟨_, (Table.mem_update hupdate).mpr ⟨t, ht, rfl⟩, ?_⟩
    split <;> exact htf
  · intro u hu huf hopen
    obtain ⟨t, ht, rfl⟩ := (Table.mem_update hupdate).mp hu
    split at hopen
    · exact nomatch hopen.2
    · next hmiss =>
      rw [if_neg hmiss] at huf
      have hid := hfound t ht huf hopen.2
      exact hmiss (by simp [Revocation.hits, Scope.selects, hid, hcovers t ht huf, hopen.2])

/-- The condition for a revocation to be accepted: no token it hits is younger than the time it
writes. -/
def Revocation.Timely (r : Revocation) (db : Database) : Prop :=
  ∀ t ∈ db.refreshTokens, r.hits t → t.createdAt ≤ r.revokedAt

/-- **What the CHECK accepts**: everything else it asks of the rows holds already. -/
theorem revoke_isSome_iff_timely :
    ((Write.revoke r).exec db).isSome ↔ r.Timely db := by
  have haccepted : (db.refreshTokens.update r.hits r.apply).isSome ↔
      ∀ t ∈ db.refreshTokens, r.hits t → (r.apply t).Checks :=
    update_isSome_iff (fun _ => rfl) fun _ => rfl
  rw [Write.exec, Option.isSome_map, haccepted]
  refine forall₃_congr fun t ht _ => ⟨fun h => h.2.2 r.revokedAt rfl, fun h => ?_⟩
  obtain ⟨hexpiry, hused, -⟩ := db.refreshTokens.valid.2.2 t ht
  refine ⟨hexpiry, hused, fun revokedAt hrevoked => ?_⟩
  obtain rfl := Option.some.inj hrevoked
  exact h

/-! ## A call that revokes -/

/-- The rotations that are in the way of a call: those of the tokens that it is about to revoke, and
of the one that it has taken hold of. -/
def Point.excludes (p : Point) (stored : RefreshToken) : Bool :=
  p.revocation.any (fun r => r.scope.covers stored) || p.copy.any fun k => decide (k.id = stored.id)

/-- **The condition**, while a call goes on: from the snapshot of its revocation to its commit no
other call's rotation commits whose token the revocation is about; while it is on its way to rotating
a token, no other call's rotation of that token does; and when its update of a family starts, no
unrevoked token of the family is younger than the time it is to write. -/
def undisturbed (i : ℕ) (s : Sessions Database Point Empty) (l : Label Point Reading Outside) :
    Bool :=
  s.calls[i]?.all fun c => match l with
    | .commit j => decide (j = i) || s.calls[j]?.all fun d => match d.pc with
      | .rotating stored _ _ _ => !c.pc.excludes stored
      | _ => true
    | .read j _ => decide (j ≠ i) || match c.pc with
      | .revokeRefreshTokenFamily familyId revokedAt _ => s.db.refreshTokens.rows.all fun k =>
        decide ((Scope.family familyId).selects k → k.createdAt ≤ revokedAt)
      | _ => true
    | _ => true

/-- The call begins with the token `k`, or is a reset. -/
def Point.Given (K : Crypto) (k : RefreshToken) : Point → Prop
  | .revokeSession token | .refreshSession token =>
    ∃ raw, present token = some raw ∧ k.tokenHash = K.hashToken raw
  | .resetPassword _ _ => True
  | _ => False

/-- **The last step of a call that revokes**: a logout returns; a refresh rejects a token that has
been used; a reset for the token's user commits. -/
inductive Revokes (k : RefreshToken) (i : ℕ) (s t : Sessions Database Point Empty) : Point → Prop
  | logout {token : Option String} (hlast : s.calls[i]?.map (·.pc) ≠ t.calls[i]?.map (·.pc))
      (hend : t.calls[i]? = some ⟨.finished .returned, 0⟩) : Revokes k i s t (.revokeSession token)
  | replay {token : Option String} {p : Point}
      (hlast : s.calls[i]?.map (·.pc) ≠ t.calls[i]?.map (·.pc))
      (hused : ∃ row ∈ s.db.refreshTokens, row.id = k.id ∧ row.usedAt ≠ none)
      (hend : t.calls[i]? = some ⟨p, 0⟩)
      (hp : p = .finished (.threw .invalidSession) ∨ p = .failed (some .invalidSession)) :
      Revokes k i s t (.refreshSession token)
  | reset {token password passwordHash : String} {stored : PasswordResetToken} {ids : List Uuid}
      {r : Revocation} {n : ℕ} (hat : s.calls[i]? = some ⟨.resetting stored passwordHash ids r, n⟩)
      (huser : stored.userId = k.userId) (hend : t.calls[i]? = some ⟨.finished .returned, 0⟩) :
      Revokes k i s t (.resetPassword token password)

/-- **Where a call is that was given the token**: it still has to find it, holds it while nobody has
used it, or revokes its family. -/
def Tracks (K : Crypto) (k : RefreshToken) (db : Database) : Point → Prop
  | .revokeSession token | .refreshSession token =>
    ∃ raw, present token = some raw ∧ k.tokenHash = K.hashToken raw
  | .refreshContext stored _ _ | .refreshAccess stored _ _ | .rotating stored _ _ _ =>
    stored.identity = k.identity ∧ Unused k.id db
  | .revokeRefreshTokenFamily familyId _ _ => familyId = k.familyId
  | .revoking r _ => r.scope = .family k.familyId
    ∧ Unrevoked k.familyId (fun t => t.id ∈ r.ids ∧ t.createdAt ≤ r.revokedAt) db
  | .finished _ | .failed _ => True
  | _ => False

/-- **Where a reset is**: if the family is its user's, it has found the tokens of it. -/
def Resets (k : RefreshToken) (db : Database) : Point → Prop
  | .resetting stored _ _ r => r.scope = .user stored.userId
    ∧ (stored.userId = k.userId → Unrevoked k.familyId (fun t => t.id ∈ r.ids) db)
  | .resetPassword _ _ | .resetTransaction _ | .finished _ | .failed _ => True
  | _ => False

section Calls

variable {s t u v : Sessions Database Point Empty} {i : ℕ} {l : Label Point Reading Outside}
  {k : RefreshToken} {c : Session Point}

/-- A look-up by the token's hash finds its row. -/
theorem find?_tokenHash (hk : db.Knows k) {raw : String} (hraw : k.tokenHash = K.hashToken raw) :
    ∃ row ∈ db.refreshTokens, row.identity = k.identity
      ∧ db.refreshTokens.find? (·.tokenHash = K.hashToken raw) = some row := by
  obtain ⟨row, hrow, hid⟩ := hk
  refine ⟨row, hrow, hid, ?_⟩
  rw [← hraw, ← (RefreshToken.identity_eq hid).2.2.2.2.1]
  exact db.refreshTokens.valid.2.1.find?_eq hrow

/-- A read does not end a call that was given the token. -/
theorem Tracks.read {p p' : Point} {x : Reading} (hk : db.Knows k) (h : Tracks K k db p)
    (htimely : ∀ familyId revokedAt answer, p = .revokeRefreshTokenFamily familyId revokedAt answer →
      ∀ t ∈ db.refreshTokens, (Scope.family familyId).selects t → t.createdAt ≤ revokedAt)
    (hread : p.read K db x = some p') :
    Tracks K k db p' ∧ (∀ answer, p' ≠ .finished answer) ∧ ∀ e, p' ≠ .failed e := by
  cases p with
  | revokeSession token =>
    obtain ⟨raw, hpresent, hraw⟩ := h
    obtain ⟨row, -, hid, hfind⟩ := find?_tokenHash hk hraw
    simp only [Point.read, hpresent, hfind, revokeSession, Option.some.injEq] at hread
    obtain rfl := hread
    exact ⟨(RefreshToken.identity_eq hid).2.2.1, by simp, by simp⟩
  | refreshSession token =>
    obtain ⟨raw, hpresent, hraw⟩ := h
    obtain ⟨row, hrow, hid, hfind⟩ := find?_tokenHash hk hraw
    obtain ⟨hrowid, -, hfamily, -⟩ := RefreshToken.identity_eq hid
    simp only [Point.read, hpresent, hfind, Option.some.injEq] at hread
    obtain rfl := hread
    have hunused (hopen : row.Open) : Unused k.id db := ⟨row, hrow, hrowid, hopen.1⟩
    rcases refreshSession_cases db row x.now with heq | ⟨user, -, hopen, heq | ⟨-, heq⟩⟩ <;> rw [heq]
    · exact ⟨hfamily, by simp, by simp⟩
    · exact ⟨⟨hid, hunused hopen⟩, by simp, by simp⟩
    · exact ⟨⟨hid, hunused hopen⟩, by simp, by simp⟩
  | refreshContext stored user now =>
    obtain rfl := Option.some.inj hread
    split
    · exact ⟨h, by simp, by simp⟩
    · exact ⟨(RefreshToken.identity_eq h.1).2.2.1, by simp, by simp⟩
  | refreshAccess stored user now =>
    obtain rfl := Option.some.inj hread
    exact ⟨h, by simp, by simp⟩
  | revokeRefreshTokenFamily familyId revokedAt answer =>
    obtain rfl := Option.some.inj hread
    obtain rfl : familyId = k.familyId := h
    have hfound : Unrevoked k.familyId
        (fun t => t.id ∈ (Scope.family k.familyId).snapshot db) db :=
      unrevoked_snapshot fun t _ hf => decide_eq_true hf
    refine ⟨⟨rfl, fun t ht hf hunrevoked => ⟨?_, ?_⟩⟩, by simp, by simp⟩
    · exact hfound t ht hf hunrevoked
    · exact htimely _ _ _ rfl t ht (by simp [Scope.selects, Scope.covers, hf, hunrevoked])
  | rotating | revoking | finished | failed => cases hread
  | _ => exact h.elim

/-- What the other calls' commits keep. -/
theorem Tracks.mono {p : Point} (h : Tracks K k db p)
    (hunrevoked : ∀ r, p.revocation = some r → r.scope = .family k.familyId →
      ∀ P : RefreshToken → Prop, (∀ {t t'}, t.identity = t'.identity → P t → P t') →
        Unrevoked k.familyId P db → Unrevoked k.familyId P db')
    (hunused : ∀ stored, p.copy = some stored → stored.id = k.id → Unused k.id db →
      Unused k.id db') : Tracks K k db' p := by
  cases p with
  | revoking r answer =>
    refine ⟨h.1, hunrevoked r rfl h.1 _ (fun {t t'} hid => ?_) h.2⟩
    obtain ⟨hid, -, -, -, -, hcreated⟩ := RefreshToken.identity_eq hid
    rw [hid, hcreated]
    exact fun h => h
  | refreshContext | refreshAccess | rotating =>
    exact ⟨h.1, hunused _ rfl (RefreshToken.identity_eq h.1).1 h.2⟩
  | revokeSession | refreshSession | revokeRefreshTokenFamily | finished | failed => exact h
  | _ => exact h.elim

/-- The rotations of other calls that commit while a call goes on undisturbed. -/
theorem excludes_of_undisturbed {j : ℕ} {d : Session Point} (hc : s.calls[i]? = some c)
    (hok : undisturbed i s (.commit j)) (hij : j ≠ i) (hd : s.calls[j]? = some d)
    {stored : RefreshToken} {accessToken : AccessToken} {now : Timestamp} {x : Reading}
    (hpc : d.pc = .rotating stored accessToken now x) : c.pc.excludes stored = false := by
  simpa only [undisturbed, hc, hd, hpc, Option.all_some, Bool.or_eq_true, decide_eq_true_eq, hij,
    false_or, Bool.not_eq_true'] using hok

/-- The tokens that are there when a call's update starts. -/
theorem timely_of_undisturbed {x : Reading} (hc : s.calls[i]? = some c)
    (hok : undisturbed i s (.read i x)) (familyId : Uuid) (revokedAt : Timestamp) (answer : Answer)
    (hpc : c.pc = .revokeRefreshTokenFamily familyId revokedAt answer) :
    ∀ t ∈ s.db.refreshTokens, (Scope.family familyId).selects t → t.createdAt ≤ revokedAt := by
  intro t ht
  simp only [undisturbed, hc, hpc, Option.all_some, ne_eq, not_true_eq_false, decide_false,
    Bool.false_or, List.all_eq_true, decide_eq_true_eq] at hok
  exact hok t ht

/-- **What a step of another call keeps**: the tokens a call is about to revoke are among those it
has found, and the one it has taken hold of is unused. -/
theorem kept_by_others (hs : (outline K).Holds s) (hk : s.db.Knows k) (hc : s.calls[i]? = some c)
    (hl : l.of ≠ some i) (hok : undisturbed i s l) (hstep : (code K).step s l = some t) :
    (∀ r, c.pc.revocation = some r →
        (∀ row ∈ s.db.refreshTokens, row.familyId = k.familyId → r.scope.covers row) →
        ∀ P : RefreshToken → Prop, (∀ {t t'}, t.identity = t'.identity → P t → P t') →
          Unrevoked k.familyId P s.db → Unrevoked k.familyId P t.db)
      ∧ ∀ stored, c.pc.copy = some stored → Unused stored.id s.db → Unused stored.id t.db := by
  rcases hs.db_cases hstep with heq | ⟨j, d, rfl, hd, hat, -, hrep⟩ | ⟨x, -, hx⟩
  · rw [heq]
    exact ⟨fun _ _ _ _ _ h => h, fun _ _ h => h⟩
  · have hij : j ≠ i := fun h => hl (congrArg some h)
    constructor
    · intro r hr hcovers P hP h
      obtain ⟨row, hrow, hid⟩ := hk
      refine h.commit hP ⟨row, hrow, (RefreshToken.identity_eq hid).2.2.1⟩ ?_ hrep
      intro stored accessToken now x hpc hf
      -- the revocation is about the token that is rotated, which it has excluded
      obtain ⟨row', hrow', hid'⟩ := hat stored (by rw [hpc]; rfl)
      obtain ⟨-, huser, hfamily, -⟩ := RefreshToken.identity_eq hid'
      have hcov := hcovers row' hrow' (hfamily.trans hf)
      have hcov' : r.scope.covers stored := by
        cases hscope : r.scope with
        | family f => rw [hscope] at hcov; simpa [Scope.covers, hfamily] using hcov
        | user u => rw [hscope] at hcov; simpa [Scope.covers, huser] using hcov
      have hnot := excludes_of_undisturbed hc hok hij hd hpc
      simp [Point.excludes, hr, hcov'] at hnot
    · intro stored hcopy h
      refine h.commit (fun hpc hid => ?_) hrep
      have hnot := excludes_of_undisturbed hc hok hij hd hpc
      simp [Point.excludes, hcopy, hid] at hnot
  · have heq := outside_refreshTokens hx
    refine ⟨fun _ _ _ _ hP h => h.ages hP (.of_eq heq), fun stored _ h => ?_⟩
    rw [Unused, heq]
    exact h

/-- The rows of the token's family are its user's. -/
theorem covers_family (hs : OwnedFamilies db) (hk : db.Knows k) {scope : Scope}
    (h : scope = .family k.familyId ∨ scope = .user k.userId) :
    ∀ t ∈ db.refreshTokens, t.familyId = k.familyId → scope.covers t := by
  intro t ht hf
  rcases h with rfl | rfl
  · exact decide_eq_true hf
  · obtain ⟨row, hrow, hid⟩ := hk
    obtain ⟨-, huser, hfamily, -⟩ := RefreshToken.identity_eq hid
    exact decide_eq_true ((hs t ht row hrow (hf.trans hfamily.symm)).trans huser)

/-- The outline, and the token's row is there. -/
def Has (K : Crypto) (k : RefreshToken) (s : Sessions Database Point Empty) : Prop :=
  (outline K).Holds s ∧ s.db.Knows k

theorem Has.step (h : Has K k s) (hstep : (code K).step s l = some t) : Has K k t := by
  refine ⟨h.1.step trivial hstep, ?_⟩
  rcases h.1.db_cases hstep with heq | ⟨j, d, -, -, -, -, hrep⟩ | ⟨x, -, hx⟩
  · exact heq ▸ h.2
  · exact knows_commit hrep h.2
  · obtain ⟨row, hrow, hid⟩ := h.2
    exact ⟨row, outside_refreshTokens hx ▸ hrow, hid⟩

/-- **The run of a call that was given the token.** -/
theorem Tracks.run (hs : Has K k s) (hc : s.calls[i]? = some c) (h : Tracks K k s.db c.pc)
    (hrun : (machine K).Run (fun s l => undisturbed i s l) s v) :
    Has K k v ∧ ∃ d, v.calls[i]? = some d ∧ Tracks K k v.db d.pc := by
  refine Code.follow (J := Tracks K k) (fun {_ _ _} (hs : Has K k _) _ hstep => hs.step hstep)
    (fun {s c x p} hs hc h hok hread => ?_) (fun {s c db} hs hc h _ hne hrep => ?_)
    (fun {db p} h => ?_) (fun {s c l t} hs hc h hl hok hstep => ?_) hrun hs hc h
  · exact (h.read hs.2 (timely_of_undisturbed hc hok) hread).1
  · obtain ⟨p, n⟩ := c
    cases p with
    | rotating | revoking => trivial
    | revokeSession | refreshSession | refreshContext | refreshAccess | revokeRefreshTokenFamily
    | finished | failed => exact absurd rfl hne
    | _ => exact h.elim
  · cases p with
    | rotating | revoking | revokeSession | refreshSession | refreshContext | refreshAccess
    | revokeRefreshTokenFamily | finished | failed => trivial
    | _ => exact h.elim
  · obtain ⟨hunrevoked, hunused⟩ := kept_by_others hs.1 hs.2 hc hl hok hstep
    refine h.mono (fun r hr hscope P hP => ?_) fun stored hcopy hid => ?_
    · exact hunrevoked r hr (covers_family hs.1.inv hs.2 (.inl hscope)) P hP
    · exact hid ▸ hunused stored hcopy

/-- **The run of a reset.** -/
theorem Resets.run (hs : Has K k s) (hc : s.calls[i]? = some c) (h : Resets k s.db c.pc)
    (hrun : (machine K).Run (fun s l => undisturbed i s l) s v) :
    Has K k v ∧ ∃ d, v.calls[i]? = some d ∧ Resets k v.db d.pc := by
  refine Code.follow (J := Resets k) (fun {_ _ _} (hs : Has K k _) _ hstep => hs.step hstep)
    (fun {s c x p} hs hc h _ hread => ?_) (fun {s c db} hs hc h _ hne hrep => ?_)
    (fun {db p} h => ?_) (fun {s c l t} hs hc h hl hok hstep => ?_) hrun hs hc h
  · obtain ⟨p', n⟩ := c
    cases p' with
    | resetPassword token password =>
      obtain rfl := Option.some.inj hread
      unfold resetPassword
      split
      · trivial
      · dsimp only
        split_ifs <;> trivial
    | resetTransaction stored =>
      obtain rfl := Option.some.inj hread
      exact ⟨rfl, fun huser => unrevoked_snapshot
        (covers_family hs.1.inv hs.2 (.inr (congrArg Scope.user huser)))⟩
    | resetting | finished | failed => cases hread
    | _ => exact h.elim
  · obtain ⟨p, n⟩ := c
    cases p with
    | resetting => trivial
    | resetPassword | resetTransaction | finished | failed => exact absurd rfl hne
    | _ => exact h.elim
  · cases p with
    | resetting | resetPassword | resetTransaction | finished | failed => trivial
    | _ => exact h.elim
  · obtain ⟨hunrevoked, -⟩ := kept_by_others hs.1 hs.2 hc hl hok hstep
    obtain ⟨p, n⟩ := c
    cases p with
    | resetting stored passwordHash ids r =>
      refine ⟨h.1, fun huser => hunrevoked r rfl ?_ _ mem_ids (h.2 huser)⟩
      exact covers_family hs.1.inv hs.2 (.inr (h.1.trans (congrArg Scope.user huser)))
    | resetPassword | resetTransaction | finished | failed => trivial
    | _ => exact h.elim

/-- **The last step of a call that was given the token** leaves the family without open tokens: by
then it is the commit of a revocation that has found all of them. -/
theorem Tracks.dead {p : Point} (hs : Has K k s) (hc : s.calls[i]? = some c)
    (h : Tracks K k s.db c.pc) (htimely : undisturbed i s l) (hstep : (code K).step s l = some t)
    (hlast : s.calls[i]?.map (·.pc) ≠ t.calls[i]?.map (·.pc)) (hend : t.calls[i]? = some ⟨p, 0⟩)
    (hp : p = .finished .returned ∨ p = .finished (.threw .invalidSession)
      ∨ p = .failed (some .invalidSession)
        ∧ ∃ row ∈ s.db.refreshTokens, row.id = k.id ∧ row.usedAt ≠ none) :
    Dead k.familyId t.db := by
  cases Code.call_cases hc hstep with
  | other _ hsame => exact absurd (by rw [hc, hsame]) hlast
  | read hread _ hu =>
    obtain rfl := congrArg Session.pc (Option.some.inj (hu.symm.trans hend))
    obtain ⟨-, hfinished, hfailed⟩ := h.read hs.2 (timely_of_undisturbed hc htimely) hread
    rcases hp with hp | hp | ⟨hp, -⟩
    · exact absurd hp (hfinished _)
    · exact absurd hp (hfinished _)
    · exact absurd hp (hfailed _)
  | write _ _ hu => cases (hu.symm.trans hend)
  | commit hne hrep hu =>
    obtain rfl := congrArg Session.pc (Option.some.inj (hu.symm.trans hend))
    obtain ⟨q, n⟩ := c
    cases q with
    | revoking r answer =>
      obtain ⟨row, hrow, hid⟩ := hs.2
      refine .of_revocation rfl ⟨row, hrow, (RefreshToken.identity_eq hid).2.2.1⟩
        (covers_family hs.1.inv hs.2 (.inl h.1)) (fun t ht hf hr => (h.2 t ht hf hr).1) hrep
    | rotating => simp [code] at hp
    | revokeSession | refreshSession | refreshContext | refreshAccess | revokeRefreshTokenFamily
    | finished | failed => exact absurd rfl hne
    | _ => exact h.elim
  | rollback _ hu =>
    obtain rfl := congrArg Session.pc (Option.some.inj (hu.symm.trans hend))
    obtain ⟨q, n⟩ := c
    cases q with
    | rotating stored accessToken now x =>
      obtain hp | hp | ⟨-, row, hrow, hid, hused⟩ := hp
      · cases hp
      · cases hp
      · exact absurd (h.2.usedAt hrow hid) hused
    | finished | failed => exact absurd (by rw [hc, hu]; rfl) hlast
    | revoking | revokeSession | refreshSession | refreshContext | refreshAccess
    | revokeRefreshTokenFamily => simp [code] at hp
    | _ => exact h.elim

/-- **The commit of a reset.** -/
theorem Resets.dead {stored : PasswordResetToken} {passwordHash : String} {ids : List Uuid}
    {r : Revocation} {n : ℕ} (hs : Has K k s)
    (hc : s.calls[i]? = some ⟨.resetting stored passwordHash ids r, n⟩)
    (h : Resets k s.db (.resetting stored passwordHash ids r)) (huser : stored.userId = k.userId)
    (hstep : (code K).step s l = some t) (hend : t.calls[i]? = some ⟨.finished .returned, 0⟩) :
    Dead k.familyId t.db := by
  cases Code.call_cases hc hstep with
  | other _ hsame => cases hsame.symm.trans hend
  | read hread => cases hread
  | write _ _ hu => cases hu.symm.trans hend
  | commit hne hrep hu =>
    obtain ⟨row, hrow, hid⟩ := hs.2
    exact .of_revocation rfl ⟨row, hrow, (RefreshToken.identity_eq hid).2.2.1⟩
      (covers_family hs.1.inv hs.2 (.inr (h.1.trans (congrArg Scope.user huser)))) (h.2 huser) hrep
  | rollback _ hu => cases hu.symm.trans hend

/-- **Revocation is final.**  In any run, take a call of `revokeSession` or `refreshSession` with a
token, or of `resetPassword`, that goes on undisturbed.  Its own update of the token's family is not
rejected.  And with the step in which the logout returns, the refresh rejects the used token or the
reset of the token's user commits, the token's family ends: none of its tokens is live in any later
state. -/
theorem revocation_final {p : Point} (hs : (machine K).Reachable Machine.free s)
    (hi : s.calls[i]? = some ⟨p, 0⟩) (hp : p.Given K k) (hk : k ∈ s.db.refreshTokens)
    (hrun : (machine K).Run (fun s l => undisturbed i s l) s u) :
    (∀ r answer n, u.calls[i]? = some ⟨.revoking r answer, n⟩ →
        ((code K).replay ((code K).writes (.revoking r answer)) u.db).isSome)
      ∧ ∀ l t, undisturbed i u l → (machine K).step u l = some t → Revokes k i u t p →
        ∀ v, (machine K).Run Machine.free t v → ∀ k' ∈ v.db.refreshTokens,
          k'.familyId = k.familyId → ∀ τ, ¬ k'.Live τ := by
  have hhas : Has K k s := ⟨Code.Outline.holds_of_reachable (fun _ => id) hs, k, hk, rfl⟩
  have hfinal {t : Sessions Database Point Empty} (ht : Has K k t) (hdead : Dead k.familyId t.db) :
      ∀ v, (machine K).Run Machine.free t v → ∀ k' ∈ v.db.refreshTokens,
        k'.familyId = k.familyId → ∀ τ, ¬ k'.Live τ := fun v hrun k' hk' hf τ hlive =>
    (hdead.run ht.1 hrun).2 k' hk' hf ⟨hlive.1, hlive.2.1⟩
  have hgiven (htracks : Tracks K k s.db p) : Has K k u
      ∧ (∀ r answer n, u.calls[i]? = some ⟨.revoking r answer, n⟩ →
        ((code K).replay ((code K).writes (.revoking r answer)) u.db).isSome)
      ∧ ∀ {l t q}, undisturbed i u l → (code K).step u l = some t →
        u.calls[i]?.map (·.pc) ≠ t.calls[i]?.map (·.pc) → t.calls[i]? = some ⟨q, 0⟩ →
        (q = .finished .returned ∨ q = .finished (.threw .invalidSession)
          ∨ q = .failed (some .invalidSession)
            ∧ ∃ row ∈ u.db.refreshTokens, row.id = k.id ∧ row.usedAt ≠ none) →
        Dead k.familyId t.db := by
    obtain ⟨hu, d, hd, hat⟩ := Tracks.run hhas hi htracks hrun
    refine ⟨hu, fun r answer n hr => ?_, fun hok hstep hlast hend hq =>
      hat.dead hu hd hok hstep hlast hend hq⟩
    obtain rfl := Option.some.inj (hd.symm.trans hr)
    have htimely : r.Timely u.db := fun t ht hhits => by
      simp only [Revocation.hits, Scope.selects, hat.1, Scope.covers, Bool.and_eq_true,
        decide_eq_true_eq, Option.isNone_iff_eq_none] at hhits
      exact (hat.2 t ht hhits.2.1 hhits.2.2).2
    obtain ⟨db, hdb⟩ := Option.isSome_iff_exists.mp (revoke_isSome_iff_timely.mpr htimely)
    simp [code, hdb]
  cases p with
  | revokeSession token =>
    obtain ⟨hu, haccepted, hdead⟩ := hgiven hp
    refine ⟨haccepted, fun l t hok hstep hrevokes => hfinal (hu.step hstep) ?_⟩
    cases hrevokes with
    | logout hlast hend => exact hdead hok hstep hlast hend (.inl rfl)
  | refreshSession token =>
    obtain ⟨hu, haccepted, hdead⟩ := hgiven hp
    refine ⟨haccepted, fun l t hok hstep hrevokes => hfinal (hu.step hstep) ?_⟩
    cases hrevokes with
    | replay hlast hused hend hq =>
      exact hdead hok hstep hlast hend (.inr (hq.imp_right fun hq => ⟨hq, hused⟩))
  | resetPassword token password =>
    obtain ⟨hu, d, hd, hat⟩ := Resets.run hhas hi trivial hrun
    refine ⟨fun r answer n hr => ?_, fun l t hok hstep hrevokes => hfinal (hu.step hstep) ?_⟩
    · obtain rfl := Option.some.inj (hd.symm.trans hr)
      exact hat.elim
    · cases hrevokes with
      | reset hat' huser hend =>
        obtain rfl := Option.some.inj (hd.symm.trans hat')
        exact hat.dead hu hd huser hstep hend
  | _ => exact hp.elim

end Calls

/-! ## One family -/

/-- Whether a family has a live token. -/
def liveAt (τ : Timestamp) (familyId : Uuid) (db : Database) : Bool :=
  db.refreshTokens.rows.any fun t => decide (t.familyId = familyId) && decide (t.Live τ)

theorem liveAt_iff {τ : Timestamp} : liveAt τ f db = true ↔
    ∃ t ∈ db.refreshTokens, t.familyId = f ∧ t.Live τ := by
  simp only [liveAt, List.any_eq_true, Bool.and_eq_true, decide_eq_true_eq]
  rfl

/-- Tokens that are their own hashes, and passwords that never match. -/
def plain : Crypto := ⟨id, fun _ _ => false, 100⟩

/-- The token a login has issued. -/
def firstToken : RefreshToken where
  id := 1
  userId := 10
  familyId := 7
  tokenHash := "a"
  expiresAt := 100
  createdAt := 0

/-- A verified user, and a session of one token. -/
def oneSession : Sessions Database Point Empty where
  db :=
    { users := [{ id := 10, emailVerifiedAt := some 0 }]
      organizations := []
      memberships := []
      refreshTokens := ⟨[firstToken], by decide⟩
      passwordResetTokens := ⟨[], by decide⟩ }
  history := []
  calls := []

theorem oneSession_init : (machine plain).init oneSession := by
  refine ⟨fun t ht t' ht' _ => ?_, rfl, rfl⟩
  rw [List.mem_singleton.mp ht, List.mem_singleton.mp ht']

/-- A rotation up to its commit: the token, the call, and what its successor is made of. -/
def rotation (i : ℕ) (token : String) (now : Timestamp) (next : Reading) :
    List (Label Point Reading Outside) :=
  [.call (.refreshSession (some token)), .read i { now }, .read i next, .write i, .write i]

/-- Whether a call is at a point, in no transaction. -/
def isAt (i : ℕ) (p : Point) (s : Sessions Database Point Empty) : Bool :=
  decide (s.calls[i]? = some ⟨p, 0⟩)

/-- Whether the program point of a call changes. -/
def moves (i : ℕ) (s t : Sessions Database Point Empty) : Bool :=
  decide (s.calls[i]?.map (·.pc) ≠ t.calls[i]?.map (·.pc))

/-- A logout between whose look-up and whose update a rotation of the family commits: the family is
never live again. -/
theorem revocation_final_of_logout : ∃ t,
    (machine plain).Reachable Machine.free t
      ∧ t.calls.map (·.pc) = [.finished (.refreshed ⟨10, "", none, none, none⟩ "b" 100),
        .finished .returned]
      ∧ ∀ v, (machine plain).Run Machine.free t v → ∀ k ∈ v.db.refreshTokens, k.familyId = 7 →
        ∀ τ, ¬ k.Live τ := by
  obtain ⟨s, hs, hp⟩ := (machine plain).exists_reachable (s := oneSession)
    (p := fun s => isAt 1 (.revokeSession (some "a")) s
      && decide (firstToken ∈ s.db.refreshTokens.rows)
      && (((machine plain).guarded (undisturbed 1)).exec s
          [.read 1 { now := 3 }, .commit 0, .read 1 {}, .write 1]).any fun u =>
        undisturbed 1 u (.commit 1) && ((machine plain).step u (.commit 1)).any fun t =>
          moves 1 u t && isAt 1 (.finished .returned) t
          && decide (t.calls.map (·.pc)
            = [.finished (.refreshed ⟨10, "", none, none, none⟩ "b" 100), .finished .returned]))
    (rotation 0 "a" 1 { id := 2, text := "b", createdAt := 2 }
      ++ [.call (.revokeSession (some "a"))])
    oneSession_init (by decide)
  simp only [Bool.and_eq_true, decide_eq_true_eq, Option.any_eq_true] at hp
  obtain ⟨⟨hi, hk⟩, u, hexec, hok, t, hstep, ⟨hmoves, hend⟩, hpcs⟩ := hp
  have hrun := Machine.run_of_guarded (Machine.run_of_exec _ hexec)
  refine ⟨t, (hs.run (hrun.mono fun _ _ _ => trivial)).run (.single trivial hstep), hpcs, ?_⟩
  exact (revocation_final hs (of_decide_eq_true hi) ⟨"a", rfl, rfl⟩ hk hrun).2 _ t hok hstep
    (.logout (of_decide_eq_true hmoves) (of_decide_eq_true hend))

/-- **A family outlives its revocation.**  A logout returns while the successor inserted by a
rotation, committed after the logout's snapshot, is live.  A refresh rejects its token because
another rotation of it has committed since its look-up, and revokes nothing.  And the revocation that
answers a replayed token is rejected, because a rotation has committed a successor since the replay
began. -/
theorem revoked_family_live :
    (∃ s t, (machine plain).Reachable Machine.free s
      ∧ s.calls[1]? = some ⟨.revokeSession (some "a"), 0⟩ ∧ firstToken ∈ s.db.refreshTokens
      ∧ (∃ u, (machine plain).Run Machine.free s u ∧ (machine plain).step u (.commit 1) = some t
        ∧ Revokes firstToken 1 u t (.revokeSession (some "a")))
      ∧ ∃ k ∈ t.db.refreshTokens, k.familyId = 7 ∧ k.Live 5) ∧
    (∃ s t, (machine plain).Reachable Machine.free s
      ∧ s.calls[1]? = some ⟨.refreshSession (some "a"), 0⟩ ∧ firstToken ∈ s.db.refreshTokens
      ∧ (∃ u, (machine plain).Run Machine.free s u ∧ (machine plain).step u (.write 1) = none
        ∧ (machine plain).step u (.rollback 1) = some t
        ∧ Revokes firstToken 1 u t (.refreshSession (some "a")))
      ∧ ∃ k ∈ t.db.refreshTokens, k.familyId = 7 ∧ k.Live 5) ∧
    ∃ t, (machine plain).Reachable Machine.free t
      ∧ (∃ c r, t.calls[1]? = some c ∧ c.pc = .revoking r (.threw .invalidSession)
        ∧ (code plain).replay ((code plain).writes c.pc) t.db = none)
      ∧ ∃ k ∈ t.db.refreshTokens, k.familyId = 7 ∧ k.Live 5 := by
  refine ⟨?_, ?_, ?_⟩
  · obtain ⟨s, hs, hp⟩ := (machine plain).exists_reachable (s := oneSession)
      (p := fun s => isAt 1 (.revokeSession (some "a")) s
        && decide (firstToken ∈ s.db.refreshTokens.rows)
        && ((machine plain).exec s [.read 1 { now := 3 }, .read 1 {}, .commit 0, .write 1]).any
          fun u => ((machine plain).step u (.commit 1)).any fun t =>
            moves 1 u t && isAt 1 (.finished .returned) t && liveAt 5 7 t.db)
      (rotation 0 "a" 1 { id := 2, text := "b", createdAt := 2 }
        ++ [.call (.revokeSession (some "a"))])
      oneSession_init (by decide)
    simp only [Bool.and_eq_true, decide_eq_true_eq, Option.any_eq_true] at hp
    obtain ⟨⟨hi, hk⟩, u, hexec, t, hstep, ⟨hmoves, hend⟩, hlive⟩ := hp
    exact ⟨s, t, hs, of_decide_eq_true hi, hk, ⟨u, Machine.run_of_exec _ hexec, hstep,
      .logout (of_decide_eq_true hmoves) (of_decide_eq_true hend)⟩, liveAt_iff.mp hlive⟩
  · obtain ⟨s, hs, hp⟩ := (machine plain).exists_reachable (s := oneSession)
      (p := fun s => isAt 1 (.refreshSession (some "a")) s
        && decide (firstToken ∈ s.db.refreshTokens.rows)
        && ((machine plain).exec s [.read 1 { now := 1 },
            .read 1 { id := 3, text := "c", createdAt := 2 }, .commit 0]).any fun u =>
          ((machine plain).step u (.write 1)).isNone
          && u.db.refreshTokens.rows.any (fun row => decide (row.id = 1) && row.usedAt.isSome)
          && ((machine plain).step u (.rollback 1)).any fun t => moves 1 u t
            && isAt 1 (.failed (some .invalidSession)) t && liveAt 5 7 t.db)
      (rotation 0 "a" 1 { id := 2, text := "b", createdAt := 2 }
        ++ [.call (.refreshSession (some "a"))])
      oneSession_init (by decide)
    simp only [Bool.and_eq_true, decide_eq_true_eq, Option.any_eq_true, Option.isNone_iff_eq_none,
      List.any_eq_true] at hp
    obtain ⟨⟨hi, hk⟩, u, hexec, ⟨hrejected, row, hrow, hid, hused⟩, t, hstep, ⟨hmoves, hend⟩,
      hlive⟩ := hp
    exact ⟨s, t, hs, of_decide_eq_true hi, hk, ⟨u, Machine.run_of_exec _ hexec, hrejected, hstep,
      .replay (of_decide_eq_true hmoves) ⟨row, hrow, hid, Option.isSome_iff_ne_none.mp hused⟩
        (of_decide_eq_true hend) (.inr rfl)⟩, liveAt_iff.mp hlive⟩
  · obtain ⟨t, ht, hp⟩ := (machine plain).exists_reachable (s := oneSession)
      (p := fun t => decide ((t.calls[1]? : Option (Session Point)) =
          some ⟨.revoking ⟨.family 7, 3, [1, 2, 3]⟩ (.threw .invalidSession), 0⟩)
        && ((Write.revoke ⟨.family 7, 3, [1, 2, 3]⟩).exec t.db).isNone && liveAt 5 7 t.db)
      (rotation 0 "a" 1 { id := 2, text := "b", createdAt := 2 }
        ++ [.commit 0, .call (.refreshSession (some "a")), .read 1 { now := 3 }]
        ++ rotation 2 "b" 3 { id := 3, text := "c", createdAt := 4 }
        ++ [.commit 2, .read 1 {}])
      oneSession_init (by decide)
    simp only [Bool.and_eq_true, decide_eq_true_eq, Option.isNone_iff_eq_none] at hp
    obtain ⟨⟨hcall, hrejected⟩, hlive⟩ := hp
    refine ⟨t, ht, ⟨_, _, hcall, rfl, ?_⟩, liveAt_iff.mp hlive⟩
    exact Option.bind_eq_none_iff.mpr fun db hdb => nomatch hrejected.symm.trans hdb

end ResourceHive.Sessions
