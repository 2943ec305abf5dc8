import ResourceHive.Sessions.Revocation

/-!
# Sessions/Rotation — a family is a chain with one open end

The validity checks of `refreshSession` read a snapshot; what decides between concurrent rotations of
one token is the `where` of the claim inside the transaction.  A claimed token is never open again
(`Closed.run`), and its successor takes its place at the end of the chain, with its user and its
expiry (`Chained`).
-/

namespace ResourceHive.Sessions

/-- **The chains**: the tokens of a family are one user's and end at one time, and at most one of
them is open. -/
structure Chained (db : Database) : Prop where
  owned : OwnedFamilies db
  expiresAt : ∀ t ∈ db.refreshTokens, ∀ t' ∈ db.refreshTokens, t.familyId = t'.familyId →
    t.expiresAt = t'.expiresAt
  one : ∀ t ∈ db.refreshTokens, ∀ t' ∈ db.refreshTokens, t.familyId = t'.familyId →
    t.Open → t'.Open → t = t'

variable {K : Crypto} {db db' : Database}

/-! ## Statements -/

theorem Chained.ages (h : Chained db) (hages : Ages db db') : Chained db' where
  owned := OwnedFamilies.ages h.owned hages
  expiresAt t ht t' ht' hf := by
    obtain ⟨u, hu, hut, -⟩ := hages.opened ht
    obtain ⟨u', hu', hut', -⟩ := hages.opened ht'
    obtain ⟨-, -, hfam, hexp, -⟩ := RefreshToken.identity_eq hut
    obtain ⟨-, -, hfam', hexp', -⟩ := RefreshToken.identity_eq hut'
    rw [← hexp, ← hexp']
    exact h.expiresAt u hu u' hu' (by rw [hfam, hfam', hf])
  one t ht t' ht' hf hopen hopen' := by
    obtain ⟨u, hu, hut, hwas⟩ := hages.opened ht
    obtain ⟨u', hu', hut', hwas'⟩ := hages.opened ht'
    obtain ⟨hid, -, hfam, -⟩ := RefreshToken.identity_eq hut
    obtain ⟨hid', -, hfam', -⟩ := RefreshToken.identity_eq hut'
    have heq := h.one u hu u' hu' (by rw [hfam, hfam', hf]) (hwas hopen) (hwas' hopen')
    exact db'.refreshTokens.valid.1.eq ht ht' (by rw [← hid, ← hid', heq])

/-- **A token joins its family's chain** if the family has no open one, or is new. -/
theorem Chained.insert {n : RefreshToken} (h : Chained db)
    (hins : db.refreshTokens.insert n = some db'.refreshTokens)
    (hn : ∀ t ∈ db.refreshTokens, t.familyId = n.familyId →
      t.userId = n.userId ∧ t.expiresAt = n.expiresAt ∧ ¬ t.Open) : Chained db' where
  owned := OwnedFamilies.insert h.owned hins fun t ht hf => (hn t ht hf).1
  expiresAt t ht t' ht' hf := by
    rcases (Table.mem_insert hins).mp ht with ht | rfl <;>
      rcases (Table.mem_insert hins).mp ht' with ht' | rfl
    · exact h.expiresAt t ht t' ht' hf
    · exact (hn t ht hf).2.1
    · exact (hn t' ht' hf.symm).2.1.symm
    · rfl
  one t ht t' ht' hf hopen hopen' := by
    rcases (Table.mem_insert hins).mp ht with ht | rfl <;>
      rcases (Table.mem_insert hins).mp ht' with ht' | rfl
    · exact h.one t ht t' ht' hf hopen hopen'
    · exact absurd hopen (hn t ht hf).2.2
    · exact absurd hopen' (hn t' ht' hf.symm).2.2
    · rfl

/-- **A rotation moves the open end**: the claimed token was the family's open one. -/
theorem Chained.rotated {stored : RefreshToken} {x : Reading} {t : RefreshToken} (h : Chained db)
    (hk : db.Knows stored) (hrot : Rotated K stored x db db' t) : Chained db' := by
  obtain ⟨db₁, hages, hclaimed, hins⟩ := hrot.rows
  obtain ⟨hid, huser, hfam, hexp, -⟩ :=
    RefreshToken.identity_eq (hk.identity_eq hrot.mem hrot.id)
  refine (h.ages hages).insert hins fun u hu hf => ?_
  obtain ⟨v, hv, hvu, hwas⟩ := hages.opened hu
  obtain ⟨hvid, hvuser, hvfam, hvexp, -⟩ := RefreshToken.identity_eq hvu
  have hvt : v.familyId = t.familyId := hvfam.trans (hf.trans hfam.symm)
  refine ⟨hvuser.symm.trans ((h.owned v hv t hrot.mem hvt).trans huser),
    hvexp.symm.trans ((h.expiresAt v hv t hrot.mem hvt).trans hexp), fun hopen => ?_⟩
  obtain rfl := h.one v hv t hrot.mem hvt (hwas hopen) ⟨hrot.unused, hrot.unrevoked⟩
  have hused := hclaimed u hu (hvid.symm.trans hid)
  rw [hopen.1] at hused
  cases hused

/-- **The outline**: the chains, and the row of each copy is there. -/
def chains (K : Crypto) : (code K).Outline Machine.free where
  Inv db _ := Chained db
  At := (outline K).At
  entry hinv hp := (outline K).entry hinv.owned hp
  read hinv hp h := (outline K).read hinv.owned hp h
  rolledBack hinv hp := (outline K).rolledBack hinv.owned hp
  commit {s i c db} hok hinv hp hc hne hrep := by
    refine ⟨?_, ((outline K).commit hok hinv.owned hp hc hne hrep).2⟩
    rcases commit_cases hrep with ⟨stored, _, _, x, t, hpc, hrot⟩ | ⟨_, _, -, hfresh, hins⟩ | hages
    · exact hinv.rotated (hp stored (by rw [hpc]; rfl)) hrot
    · exact hinv.insert hins fun t ht hf => absurd hf (hfresh t ht)
    · exact hinv.ages hages
  outside hok hinv h :=
    ⟨hinv.ages (.of_eq (outside_refreshTokens h)), ((outline K).outside hok hinv.owned h).2⟩

/-! ## A token that is not open any more -/

/-- **Closed**: the token is there, and not open. -/
def Closed (id : Uuid) (db : Database) : Prop :=
  (∃ t ∈ db.refreshTokens, t.id = id) ∧ ∀ t ∈ db.refreshTokens, t.id = id → ¬ t.Open

variable {id : Uuid}

theorem Closed.ages (h : Closed id db) (hages : Ages db db') : Closed id db' := by
  obtain ⟨⟨t, ht, hid⟩, hclosed⟩ := h
  constructor
  · obtain ⟨u, hu, hut⟩ := hages.stays t ht
    exact ⟨u, hu, (RefreshToken.identity_eq hut).1.trans hid⟩
  · intro u hu huid hopen
    obtain ⟨v, hv, hvu, hwas⟩ := hages.opened hu
    exact hclosed v hv ((RefreshToken.identity_eq hvu).1.trans huid) (hwas hopen)

/-- A token inserted is another one. -/
theorem Closed.insert {n : RefreshToken} (h : Closed id db)
    (hins : db.refreshTokens.insert n = some db'.refreshTokens) : Closed id db' := by
  obtain ⟨⟨t, ht, hid⟩, hclosed⟩ := h
  refine ⟨⟨t, (Table.mem_insert hins).mpr (.inl ht), hid⟩, fun u hu huid => ?_⟩
  rcases (Table.mem_insert hins).mp hu with hu | rfl
  · exact hclosed u hu huid
  · exact absurd (hid.trans huid.symm) (id_ne_of_insert hins ht)

theorem Closed.commit {p : Point} (h : Closed id db)
    (hrep : (code K).replay ((code K).writes p) db = some db') : Closed id db' := by
  rcases commit_cases hrep with ⟨_, _, _, _, _, -, hrot⟩ | ⟨_, _, -, -, hins⟩ | hages
  · obtain ⟨db₁, hages, -, hins⟩ := hrot.rows
    exact (h.ages hages).insert hins
  · exact h.insert hins
  · exact h.ages hages

/-- A rotation closes the token it claims. -/
theorem Closed.of_rotation {stored : RefreshToken} {x : Reading} {t : RefreshToken}
    (hrot : Rotated K stored x db db' t) : Closed stored.id db' := by
  obtain ⟨db₁, hages, hclaimed, hins⟩ := hrot.rows
  have hclosed : Closed stored.id db₁ := by
    constructor
    · obtain ⟨u, hu, hut⟩ := hages.stays t hrot.mem
      exact ⟨u, hu, (RefreshToken.identity_eq hut).1.trans hrot.id⟩
    · intro u hu hid hopen
      have hused := hclaimed u hu hid
      rw [hopen.1] at hused
      cases hused
  exact hclosed.insert hins

theorem Closed.step {init : Database → Prop} {s t : Sessions Database Point Empty}
    {l : Label Point Reading Outside} (h : Closed id s.db)
    (hstep : ((code K).machine init).step s l = some t) : Closed id t.db := by
  have hstep : (code K).step s l = some t := hstep
  cases Code.step_cases hstep with
  | call | read | write | rollback => exact h
  | commit hc hpos hall hrep => exact h.commit hrep
  | outside hx => exact h.ages (.of_eq (outside_refreshTokens hx))

/-- **The run lemma**: a token that is not open stays so. -/
theorem Closed.run {init : Database → Prop} {s t : Sessions Database Point Empty}
    (h : Closed id s.db) (hrun : ((code K).machine init).Run Machine.free s t) : Closed id t.db :=
  hrun.invariant (I := fun t => Closed id t.db) h fun ht _ hstep => ht.step hstep

/-- A call that was about to claim it can only fail. -/
theorem Closed.step_commit {s : Sessions Database Point Empty} {i : ℕ} {c : Session Point}
    {stored : RefreshToken} {accessToken : AccessToken} {now : Timestamp} {x : Reading}
    (h : Closed stored.id s.db) (hc : s.calls[i]? = some c)
    (hpc : c.pc = .rotating stored accessToken now x) :
    (code K).step s (.commit i) = none := by
  rw [Option.eq_none_iff_forall_ne_some]
  intro t hstep
  cases Code.step_cases hstep with
  | commit hc' hpos hall hrep =>
    obtain rfl := Option.some.inj (hc.symm.trans hc')
    rw [hpc] at hrep
    obtain ⟨k, hrot⟩ := replay_rotation hrep
    exact h.2 k hrot.mem hrot.id ⟨hrot.unused, hrot.unrevoked⟩

/-- A call that has failed does nothing any more. -/
theorem failed_run {init : Database → Prop} {s t : Sessions Database Point Empty} {i : ℕ}
    {error : Option AuthError} (h : s.calls[i]? = some ⟨.failed error, 0⟩)
    (hrun : ((code K).machine init).Run Machine.free s t) :
    t.calls[i]? = some ⟨.failed error, 0⟩ := by
  refine hrun.invariant (I := fun t => t.calls[i]? = some ⟨.failed error, 0⟩) h
    fun {t l u} ht _ hstep => ?_
  have hstep : (code K).step t l = some u := hstep
  cases Code.call_cases ht hstep with
  | other hl h => exact h
  | read hread => cases hread
  | write hlt => exact absurd hlt (Nat.not_lt_zero _)
  | commit hne => exact absurd rfl hne
  | rollback hdb hc => exact hc

/-- **Refresh-token rotation**, in every state of every interleaving.  The tokens of a family have
one user and one expiry, and at most one of them is open.  Once a rotation has committed, no rotation
of the same token ever commits.  And a rotation that does not commit leaves no token: executing its
statements and rolling it back change nothing, and then the call has failed for good. -/
theorem rotation_safe {s : Sessions Database Point Empty}
    (hs : ((code K).machine Chained).Reachable Machine.free s) :
    (∀ t ∈ s.db.refreshTokens, ∀ t' ∈ s.db.refreshTokens, t.familyId = t'.familyId →
        t.userId = t'.userId ∧ t.expiresAt = t'.expiresAt ∧ (t.Open → t'.Open → t = t'))
      ∧ ∀ (i : ℕ) n stored accessToken now x,
          s.calls[i]? = some ⟨.rotating stored accessToken now x, n⟩ →
        (∀ t, (code K).step s (.commit i) = some t → ∀ u,
          ((code K).machine Chained).Run Machine.free t u → ∀ (j : ℕ) m stored' accessToken' now' x',
            u.calls[j]? = some ⟨.rotating stored' accessToken' now' x', m⟩ → stored'.id = stored.id →
              (code K).step u (.commit j) = none)
        ∧ (∀ t, (code K).step s (.write i) = some t → t.db = s.db)
        ∧ ∀ t, (code K).step s (.rollback i) = some t → t.db = s.db
          ∧ ∀ u, ((code K).machine Chained).Run Machine.free t u →
            u.calls[i]? = some ⟨.failed (some .invalidSession), 0⟩ := by
  have hchained : Chained s.db :=
    (Code.Outline.holds_of_reachable (O := chains K) (fun _ => id) hs).inv
  refine ⟨fun t ht t' ht' hf => ⟨hchained.owned t ht t' ht' hf, hchained.expiresAt t ht t' ht' hf,
    hchained.one t ht t' ht' hf⟩, fun i n stored accessToken now x hc => ⟨fun t hstep u hrun j m stored'
      accessToken' now' x' hj hid => ?_, fun t hstep => ?_, fun t hstep => ?_⟩⟩
  · have hclosed : Closed stored.id t.db := by
      cases Code.call_cases hc hstep with
      | commit hne hrep h =>
        obtain ⟨k, hrot⟩ := replay_rotation hrep
        exact .of_rotation hrot
      | other hl => exact absurd rfl hl
    have hlater := hclosed.run hrun
    rw [← hid] at hlater
    exact hlater.step_commit hj rfl
  · cases Code.call_cases hc hstep with
    | write hlt hdb h => exact hdb
    | other hl => exact absurd rfl hl
  · cases Code.call_cases hc hstep with
    | rollback hdb h => exact ⟨hdb, fun u hrun => failed_run h hrun⟩
    | other hl => exact absurd rfl hl

theorem oneSession_chained : ((code plain).machine Chained).init oneSession := by
  have hone : ∀ t ∈ oneSession.db.refreshTokens, t = firstToken := fun t => List.mem_singleton.mp
  refine ⟨⟨fun t ht t' ht' _ => ?_, fun t ht t' ht' _ => ?_, fun t ht t' ht' _ _ _ => ?_⟩, rfl, rfl⟩
    <;> rw [hone t ht, hone t' ht']

/-- Two requests refresh with one token: one is answered, and the other can only fail. -/
theorem rotation_safe_of_race : ∃ s, ((code plain).machine Chained).Reachable Machine.free s
    ∧ s.calls = [⟨.finished (.refreshed ⟨10, "", none, none, none⟩ "b" 100), 0⟩,
        ⟨.rotating firstToken ⟨10, "", none, none, none⟩ 1
          { id := 3, text := "c", createdAt := 2 }, 0⟩]
    ∧ (∀ t ∈ s.db.refreshTokens, ∀ t' ∈ s.db.refreshTokens, t.familyId = t'.familyId →
        t.Open → t'.Open → t = t')
    ∧ ∀ t, (code plain).step s (.rollback 1) = some t → t.db = s.db := by
  obtain ⟨s, hs, hp⟩ := ((code plain).machine Chained).exists_reachable (s := oneSession)
    (p := fun s => decide (s.calls = [⟨.finished (.refreshed ⟨10, "", none, none, none⟩ "b" 100), 0⟩,
        ⟨.rotating firstToken ⟨10, "", none, none, none⟩ 1
          { id := 3, text := "c", createdAt := 2 }, 0⟩]))
    (rotation 0 "a" 1 { id := 2, text := "b", createdAt := 2 }
      ++ [.call (.refreshSession (some "a")), .read 1 { now := 1 },
        .read 1 { id := 3, text := "c", createdAt := 2 }, .commit 0])
    oneSession_chained (by decide)
  have hcalls := of_decide_eq_true hp
  obtain ⟨hfamilies, hrotations⟩ := rotation_safe hs
  refine ⟨s, hs, hcalls, fun t ht t' ht' hf => (hfamilies t ht t' ht' hf).2.2, fun t hstep => ?_⟩
  exact ((hrotations 1 0 _ _ _ _ (by rw [hcalls]; rfl)).2.2 t hstep).1

end ResourceHive.Sessions
