import ResourceHive.Organizations.Guards
import ResourceHive.Organizations.MembershipService

/-!
# Organizations/Administrators — whether an organization keeps an administrator

Only three statements take an approved administrator away: the role update of `updateMembershipRole`,
the one of `revokeChildAdministrator`, and the delete of `removeMembership`.  Each of them names one
row, and is made after a look at the organization, in a step of its own: `assertNotLastAdministrator`
has counted another administrator, or the row was none's when it was read.  So there is an
administrator whom the call spares, and as long as nobody takes that one before the call commits, the
organization keeps one (`administrator_remains`).  Two calls that have both looked can take the last
two.
-/

namespace ResourceHive.Organizations

/-- The rows whose role the statement takes, or which it deletes. -/
def Write.demotes : Write → OrganizationMembership → Bool
  | .updateRole userId organizationId role, m => m.of userId organizationId && decide (role = .member)
  | .demote membershipId, m => decide (m.id = membershipId)
  | .delete userId organizationId, m => m.of userId organizationId
  | .review _ _ _ _ _, _ | .appoint _ _ _, _ | .audit _, _ => false

/-- The organization has an approved administrator. -/
def HasAdministrator (db : Database) (organizationId : Uuid) : Prop :=
  ∃ m ∈ db.memberships, m.isAdministratorOf organizationId

variable {db db' : Database} {o membershipId : Uuid} {w : Write} {e : OrganizationMembershipAudit}

/-! ## Counting administrators -/

theorem adminCount_pos : 0 < db.adminCount o ↔ HasAdministrator db o := by
  simp only [Database.adminCount, List.length_pos_iff_exists_mem, List.mem_filter, HasAdministrator]
  rfl

/-- More than one administrator: two different ones. -/
theorem one_lt_adminCount : 1 < db.adminCount o ↔
    ∃ m ∈ db.memberships, ∃ n ∈ db.memberships,
      m ≠ n ∧ m.isAdministratorOf o ∧ n.isAdministratorOf o :=
  db.memberships.valid.1.one_lt_length_filter

theorem assertNotLastAdministrator_eq_ok :
    assertNotLastAdministrator db o = .ok () ↔ 1 < db.adminCount o := by
  unfold assertNotLastAdministrator
  split
  · rename_i hle
    exact ⟨nofun, fun hlt => absurd hle (by omega)⟩
  · rename_i hlt
    exact ⟨fun _ => by omega, fun _ => rfl⟩

/-- A statement takes at most one row. -/
theorem demotes_unique {m n : OrganizationMembership} (hm : m ∈ db.memberships)
    (hn : n ∈ db.memberships) (hdm : w.demotes m) (hdn : w.demotes n) : m = n := by
  have hkey (u o : Uuid) (hm' : m.of u o) (hn' : n.of u o) : m = n := by
    simp only [OrganizationMembership.of, Bool.and_eq_true, decide_eq_true_eq] at hm' hn'
    exact db.memberships.valid.2.1.eq hm hn (by rw [hm'.1, hm'.2, hn'.1, hn'.2])
  cases w with
  | updateRole userId organizationId role =>
    exact hkey _ _ (Bool.and_eq_true _ _ ▸ hdm).1 (Bool.and_eq_true _ _ ▸ hdn).1
  | demote membershipId =>
    exact db.memberships.valid.1.eq hm hn
      ((of_decide_eq_true hdm).trans (of_decide_eq_true hdn).symm)
  | delete userId organizationId => exact hkey _ _ hdm hdn
  | review | appoint | audit => cases hdm

/-- Where there are two, one is left whichever the statement takes. -/
theorem exists_spared (w : Write) (h : 1 < db.adminCount o) :
    ∃ m ∈ db.memberships, m.isAdministratorOf o ∧ w.demotes m = false := by
  obtain ⟨m, hm, n, hn, hne, ham, han⟩ := one_lt_adminCount.mp h
  by_cases hdm : w.demotes m
  · refine ⟨n, hn, han, Bool.eq_false_iff.mpr fun hdn => hne ?_⟩
    exact demotes_unique hm hn hdm hdn
  · exact ⟨m, hm, ham, Bool.eq_false_iff.mpr hdm⟩

/-! ## What a statement leaves -/

/-- The parts of an update of one row. -/
theorem updateOne_eq_some {p : OrganizationMembership → Bool}
    {f : OrganizationMembership → OrganizationMembership} (h : db.updateOne p f = some db') :
    db.memberships.update p f = some db'.memberships := by
  simp only [Database.updateOne, Option.ite_none_right_eq_some, Option.map_eq_some_iff] at h
  obtain ⟨-, ms, hms, rfl⟩ := h
  exact hms

/-- The row that replaces one under an update. -/
theorem mem_updateOne {p : OrganizationMembership → Bool}
    {f : OrganizationMembership → OrganizationMembership} (h : db.updateOne p f = some db')
    {m : OrganizationMembership} (hm : m ∈ db.memberships) :
    (if p m then f m else m) ∈ db'.memberships :=
  (Table.mem_update (updateOne_eq_some h)).mpr ⟨m, hm, rfl⟩

/-- An audit, and the membership its foreign key finds. -/
theorem audit_eq_some (h : (Write.audit e).exec db = some db') :
    (∃ m ∈ db.memberships, m.id = e.membershipId) ∧ db'.memberships = db.memberships
      ∧ db'.audits.rows = db.audits.rows ++ [e] := by
  simp only [Write.exec, Option.ite_none_right_eq_some, Option.map_eq_some_iff, List.any_eq_true,
    decide_eq_true_eq] at h
  obtain ⟨⟨hexists, -⟩, audits, hinsert, rfl⟩ := h
  exact ⟨hexists, rfl, Table.insert_eq_some.mp hinsert⟩

/-- Under an id, a membership keeps its user and its organization, and stays approved. -/
def Keeps (membershipId : Uuid) (db db' : Database) : Prop :=
  ∀ r' ∈ db'.memberships, r'.id = membershipId → ∃ r ∈ db.memberships, r.id = membershipId
    ∧ r'.userId = r.userId ∧ r'.organizationId = r.organizationId ∧ (r.status = .approved → r'.status = .approved)

theorem Keeps.trans {db₁ : Database} (h : Keeps membershipId db db₁)
    (h' : Keeps membershipId db₁ db') : Keeps membershipId db db' := by
  intro r' hr' hid
  obtain ⟨r₁, hr₁, hid₁, hu₁, ho₁, happroved₁⟩ := h' r' hr' hid
  obtain ⟨r, hr, hrid, hu, ho, happroved⟩ := h r₁ hr₁ hid₁
  exact ⟨r, hr, hrid, hu₁.trans hu, ho₁.trans ho, fun h => happroved₁ (happroved h)⟩

theorem Keeps.of_subset (h : ∀ r ∈ db'.memberships, r.id = membershipId → r ∈ db.memberships) :
    Keeps membershipId db db' :=
  fun r hr hid => ⟨r, h r hr hid, hid, rfl, rfl, fun happroved => happroved⟩

theorem keeps_updateOne {p : OrganizationMembership → Bool}
    {f : OrganizationMembership → OrganizationMembership} (h : db.updateOne p f = some db')
    (hf : ∀ r, (f r).id = r.id ∧ (f r).userId = r.userId ∧ (f r).organizationId = r.organizationId)
    (happroved : ∀ r, p r → r.status = .approved → (f r).status = .approved) :
    Keeps membershipId db db' := by
  intro r' hr' hid
  obtain ⟨r, hr, rfl⟩ := (Table.mem_update (updateOne_eq_some h)).mp hr'
  split at hid
  · next hp =>
    rw [if_pos hp]
    exact ⟨r, hr, (hf r).1.symm.trans hid, (hf r).2.1, (hf r).2.2, happroved r hp⟩
  · next hp =>
    rw [if_neg hp]
    exact ⟨r, hr, hid, rfl, rfl, fun h => h⟩

/-- A decision is made of memberships that are not approved. -/
theorem not_approved_of_mem_allowedStatuses {decision : MembershipDecision} {s : MembershipStatus}
    (h : s ∈ decision.allowedStatuses) : s ≠ .approved := by
  rintro rfl
  cases decision <;> simp [MembershipDecision.allowedStatuses] at h

theorem keeps_exec {w : Write} (h : w.exec db = some db') : Keeps membershipId db db' := by
  cases w with
  | updateRole userId organizationId role =>
    exact keeps_updateOne h (fun _ => ⟨rfl, rfl, rfl⟩) fun _ _ h => h
  | demote membershipId => exact keeps_updateOne h (fun _ => ⟨rfl, rfl, rfl⟩) fun _ _ h => h
  | review membershipId decision reviewedBy reviewedAt reviewNote =>
    simp only [Write.exec, Option.ite_none_right_eq_some] at h
    refine keeps_updateOne h.2 (fun _ => ⟨rfl, rfl, rfl⟩) fun r hp happroved => ?_
    simp only [Bool.and_eq_true, decide_eq_true_eq] at hp
    exact absurd happroved (not_approved_of_mem_allowedStatuses hp.2)
  | appoint membershipId reviewedBy reviewedAt =>
    simp only [Write.exec, Option.ite_none_right_eq_some] at h
    exact keeps_updateOne h.2 (fun _ => ⟨rfl, rfl, rfl⟩) fun _ _ _ => rfl
  | delete userId organizationId =>
    simp only [Write.exec, Option.ite_none_right_eq_some, Option.bind_eq_some_iff,
      Option.map_eq_some_iff] at h
    obtain ⟨-, ms, hms, as, -, rfl⟩ := h
    exact .of_subset fun r hr _ => ((Table.mem_delete hms).mp hr).1
  | audit event =>
    obtain ⟨-, hms, -⟩ := audit_eq_some h
    exact .of_subset fun r hr _ => hms ▸ hr

/-- …and what a transaction does, of one machine or another. -/
theorem keeps_statements {ws : List Write}
    (h : ws.foldlM (fun d w => Write.exec w d) db = some db') : Keeps membershipId db db' := by
  induction ws generalizing db with
  | nil =>
    obtain rfl : db = db' := Option.some.inj h
    exact .of_subset fun r hr _ => hr
  | cons w ws ih =>
    obtain ⟨db₁, hw, hrest⟩ := Option.bind_eq_some_iff.mp h
    exact (keeps_exec hw).trans (ih hrest)

/-! ## An administrator whom a statement spares -/

/-- Whether a statement takes a row is a matter of the row's names. -/
theorem demotes_congr {m n : OrganizationMembership} (hid : n.id = m.id) (hu : n.userId = m.userId)
    (ho : n.organizationId = m.organizationId) : w.demotes n = w.demotes m := by
  cases w <;> simp only [Write.demotes, OrganizationMembership.of, hid, hu, ho]

/-- **What a statement spares**: an administrator it does not take is still there, as one. -/
theorem exec_spares (h : w.exec db = some db') {m : OrganizationMembership}
    (hm : m ∈ db.memberships) (ham : m.isAdministratorOf o) (hnot : w.demotes m = false) :
    ∃ n ∈ db'.memberships, n.isAdministratorOf o ∧ n.id = m.id ∧ n.userId = m.userId
      ∧ n.organizationId = m.organizationId := by
  obtain ⟨horg, hrole, happroved⟩ := OrganizationMembership.isAdministratorOf_iff.mp ham
  cases w with
  | updateRole userId organizationId role =>
    refine ⟨_, mem_updateOne h hm, ?_⟩
    split
    · rename_i hp
      have hadmin : role = .admin := by
        cases role with
        | admin => rfl
        | member => simp [Write.demotes, hp] at hnot
      exact ⟨OrganizationMembership.isAdministratorOf_iff.mpr ⟨horg, hadmin, happroved⟩, rfl, rfl,
        rfl⟩
    · exact ⟨ham, rfl, rfl, rfl⟩
  | demote membershipId =>
    have hmem := mem_updateOne h hm
    rw [if_neg (by simpa [Write.demotes] using hnot)] at hmem
    exact ⟨m, hmem, ham, rfl, rfl, rfl⟩
  | review membershipId decision reviewedBy reviewedAt reviewNote =>
    simp only [Write.exec, Option.ite_none_right_eq_some] at h
    have hmem := mem_updateOne h.2 hm
    -- an approved row is no longer up for a decision
    have hnotallowed : m.status ∉ decision.allowedStatuses :=
      fun hallowed => not_approved_of_mem_allowedStatuses hallowed happroved
    rw [if_neg (by simp [hnotallowed])] at hmem
    exact ⟨m, hmem, ham, rfl, rfl, rfl⟩
  | appoint membershipId reviewedBy reviewedAt =>
    simp only [Write.exec, Option.ite_none_right_eq_some] at h
    refine ⟨_, mem_updateOne h.2 hm, ?_⟩
    split
    · exact ⟨OrganizationMembership.isAdministratorOf_iff.mpr ⟨horg, rfl, rfl⟩, rfl, rfl, rfl⟩
    · exact ⟨ham, rfl, rfl, rfl⟩
  | delete userId organizationId =>
    simp only [Write.exec, Option.ite_none_right_eq_some, Option.bind_eq_some_iff,
      Option.map_eq_some_iff] at h
    obtain ⟨-, ms, hms, as, -, rfl⟩ := h
    exact ⟨m, (Table.mem_delete hms).mpr ⟨hm, hnot⟩, ham, rfl, rfl, rfl⟩
  | audit event =>
    obtain ⟨-, hms, -⟩ := audit_eq_some h
    exact ⟨m, hms ▸ hm, ham, rfl, rfl, rfl⟩

variable {text : TextFunctions} {ws vs : List Write}

/-- **An administrator whom none of these statements takes.** -/
def Spared (o : Uuid) (ws : List Write) (db : Database) : Prop :=
  ∃ m ∈ db.memberships, m.isAdministratorOf o ∧ ∀ w ∈ ws, w.demotes m = false

/-- The administrator whom a transaction spares is spared by whatever spared them before. -/
theorem spared_statements {m : OrganizationMembership} (hm : m ∈ db.memberships)
    (ham : m.isAdministratorOf o) (hws : ∀ w ∈ ws, w.demotes m = false)
    (hvs : ∀ v ∈ vs, v.demotes m = false) (h : (code text).replay ws db = some db') :
    Spared o vs db' := by
  induction ws generalizing db m with
  | nil =>
    obtain rfl : db = db' := Option.some.inj h
    exact ⟨m, hm, ham, hvs⟩
  | cons w ws ih =>
    obtain ⟨db₁, hw, hrest⟩ := Option.bind_eq_some_iff.mp h
    obtain ⟨hnot, hws⟩ := List.forall_mem_cons.mp hws
    obtain ⟨n, hn, han, hid, hu, ho⟩ := exec_spares hw hm ham hnot
    exact ih hn han (fun w' hw' => (demotes_congr hid hu ho).trans (hws w' hw'))
      (fun v hv => (demotes_congr hid hu ho).trans (hvs v hv)) hrest

/-- A transaction takes at most one row. -/
theorem exists_spared_by_call (call : Call) (m : OrganizationMembership) (x : Reading)
    (h : 1 < db.adminCount o) : Spared o (call.writes text m x) db := by
  have hone {w : Write} {e : OrganizationMembershipAudit} : Spared o [w, .audit e] db := by
    obtain ⟨n, hn, han, hnot⟩ := exists_spared w h
    refine ⟨n, hn, han, fun v hv => ?_⟩
    rcases List.mem_pair.mp hv with rfl | rfl
    · exact hnot
    · rfl
  obtain ⟨operation, actorUserId⟩ := call
  cases operation with
  | updateMembershipStatus | appointChildAdministrator | revokeChildAdministrator => exact hone
  | updateMembershipRole targetUserId organizationId role =>
    simp only [Call.writes]
    cases parseRole role with
    | none =>
      obtain ⟨n, hn, han, -⟩ := exists_spared (.delete 0 0) h
      exact ⟨n, hn, han, nofun⟩
    | some role => exact hone
  | removeMembership targetUserId organizationId =>
    obtain ⟨n, hn, han, hnot⟩ := exists_spared (.delete targetUserId organizationId) h
    exact ⟨n, hn, han, fun v hv => List.mem_singleton.mp hv ▸ hnot⟩

/-! ## The condition -/

/-- A call that is about to commit a statement that takes an approved administrator of the
organization. -/
def Takes (text : TextFunctions) (o : Uuid) (db : Database) (p : Point) : Prop :=
  ∃ w ∈ (code text).writes p, ∃ m ∈ db.memberships, w.demotes m ∧ m.isAdministratorOf o

/-- **The condition on a step**: when a call commits that takes an administrator of the organization,
no other call that is going to take one stands between its look and its commit; and identifiers for
new memberships are fresh. -/
def OneAtATime (text : TextFunctions) (o : Uuid) (s : Sessions Database Point Empty) :
    Label Point Reading Outside → Prop
  | .commit i => ∀ c ∈ s.calls[i]?, Takes text o s.db c.pc →
      ∀ j < s.calls.length, j ≠ i → ∀ d ∈ s.calls[j]?, ¬ Takes text o s.db d.pc
  | .outside (.join membership) => ∀ c ∈ s.calls, ∀ m ∈ membershipRead c.pc, m.id ≠ membership.id
  | _ => True

/-! ## What a call has looked at -/

/-- The look-up of a call is of the organization whose administrators are counted, and that of
`removeMembership` of the user whom it removes. -/
def Named (call : Call) (userId organizationId : Uuid) : Prop :=
  organizationId = call.operation.organizationId
    ∧ ∀ u o, call.operation = .removeMembership u o → userId = u

/-- **What is known where a call is**: there is an administrator whom it spares; and what it has
looked up, or is going to, is a membership of the organization it counts in. -/
def Relies (text : TextFunctions) (o : Uuid) (db : Database) (p : Point) : Prop :=
  Spared o ((code text).writes p) db ∧ match p with
    | .findMembership call userId organizationId => Named call userId organizationId
    | .countAdministrators call m =>
      ∀ r ∈ db.memberships, r.id = m.id → r.organizationId = call.operation.organizationId
    | _ => True

/-- Where nothing is about to be written, and no membership has been looked up. -/
theorem relies_of_hasAdministrator {p : Point} (ho : HasAdministrator db o)
    (hp : (code text).writes p = []) (hread : match p with
      | .findMembership call userId organizationId => Named call userId organizationId
      | .countAdministrators _ _ => False
      | _ => True) : Relies text o db p := by
  obtain ⟨m, hm, ham⟩ := ho
  refine ⟨⟨m, hm, ham, fun w hw => ?_⟩, ?_⟩
  · rw [hp] at hw
    cases hw
  · cases p with
    | countAdministrators => exact hread.elim
    | findMembership => exact hread
    | authorize | findChild | findCandidate | writing | returned | failed => trivial

theorem relies_start (ho : HasAdministrator db o) (call : Call) : Relies text o db call.start := by
  obtain ⟨operation, actorUserId⟩ := call
  cases operation with
  | updateMembershipRole userId organizationId role =>
    simp only [Call.start]
    split
    · exact relies_of_hasAdministrator ho rfl ⟨rfl, nofun⟩
    · exact relies_of_hasAdministrator ho rfl trivial
  | updateMembershipStatus userId organizationId decision reason =>
    exact relies_of_hasAdministrator ho rfl ⟨rfl, nofun⟩
  | removeMembership userId organizationId =>
    refine relies_of_hasAdministrator ho rfl ⟨rfl, ?_⟩
    rintro u o ⟨⟩
    rfl
  | appointChildAdministrator | revokeChildAdministrator =>
    exact relies_of_hasAdministrator ho rfl trivial

theorem relies_afterChild (ho : HasAdministrator db o) (call : Call) (child : Option Organization) :
    Relies text o db (call.afterChild child) := by
  unfold Call.afterChild
  split
  · split_ifs <;> exact relies_of_hasAdministrator ho rfl trivial
  · next hop =>
    split_ifs
    · exact relies_of_hasAdministrator ho rfl trivial
    · refine relies_of_hasAdministrator ho rfl ⟨by rw [hop]; rfl, fun u o h => ?_⟩
      rw [hop] at h
      cases h
  · exact relies_of_hasAdministrator ho rfl trivial

theorem relies_afterCandidate (ho : HasAdministrator db o) {call : Call} {parentId childId : Uuid}
    {email : String} (hop : call.operation = .appointChildAdministrator parentId childId email)
    (candidate : Option User) : Relies text o db (call.afterCandidate childId candidate) := by
  unfold Call.afterCandidate
  split
  · split_ifs
    · refine relies_of_hasAdministrator ho rfl ⟨by rw [hop]; rfl, fun u o h => ?_⟩
      rw [hop] at h
      cases h
    · exact relies_of_hasAdministrator ho rfl trivial
  · exact relies_of_hasAdministrator ho rfl trivial

/-- A verdict that goes on is of the membership that was found. -/
theorem found_of_verdict {call : Call} {found : Option OrganizationMembership} {v : Verdict}
    {m : OrganizationMembership} (h : call.verdict db found = .ok v)
    (hv : v = .count m ∨ v = .write m) : found = some m := by
  obtain ⟨operation, actorUserId⟩ := call
  cases found with
  | none =>
    cases operation with
    | updateMembershipRole targetUserId organizationId role =>
      simp only [Call.verdict] at h
      split at h <;> cases h
    | updateMembershipStatus | removeMembership | appointChildAdministrator
    | revokeChildAdministrator => cases h
  | some r =>
    have hr : v = .unchanged ∨ v = .count r ∨ v = .write r := by
      cases operation with
      | updateMembershipStatus targetUserId organizationId decision reason =>
        simp only [Call.verdict, updateMembershipStatus] at h
        split_ifs at h
        · exact .inr (.inr (Except.ok.inj h).symm)
        · cases decision <;> cases h
      | updateMembershipRole targetUserId organizationId role =>
        simp only [Call.verdict] at h
        split at h
        · simp only [updateMembershipRole] at h
          split_ifs at h
          · exact .inl (Except.ok.inj h).symm
          · exact .inr (.inl (Except.ok.inj h).symm)
          · exact .inr (.inr (Except.ok.inj h).symm)
        · cases h
      | removeMembership targetUserId organizationId =>
        simp only [Call.verdict, removeMembership] at h
        split_ifs at h
        · exact .inr (.inl (Except.ok.inj h).symm)
        · exact .inr (.inr (Except.ok.inj h).symm)
      | appointChildAdministrator parentOrganizationId childOrganizationId email =>
        simp only [Call.verdict, appointChildAdministrator] at h
        split_ifs at h
        · exact .inl (Except.ok.inj h).symm
        · exact .inr (.inr (Except.ok.inj h).symm)
      | revokeChildAdministrator parentOrganizationId childOrganizationId targetUserId =>
        simp only [Call.verdict, revokeChildAdministrator] at h
        split_ifs at h
        exact .inr (.inl (Except.ok.inj h).symm)
    rcases hr with rfl | rfl | rfl <;> rcases hv with hv | hv <;> cases hv <;> rfl

/-- **Without a count, only a membership is taken that was no administrator's.** -/
theorem demotes_uncounted {call : Call} {m : OrganizationMembership} {x : Reading}
    (h : call.verdict db (some m) = .ok (.write m)) {w : Write} (hw : w ∈ call.writes text m x)
    {r : OrganizationMembership} (hr : w.demotes r) :
    (∃ u o, call.operation = .removeMembership u o ∧ r.of u o)
      ∧ ¬ (m.role = .admin ∧ m.status = .approved) := by
  obtain ⟨operation, actorUserId⟩ := call
  cases operation with
  | updateMembershipStatus targetUserId organizationId decision reason =>
    rcases List.mem_pair.mp hw with rfl | rfl <;> cases hr
  | updateMembershipRole targetUserId organizationId role =>
    simp only [Call.verdict] at h
    simp only [Call.writes] at hw
    cases hrole : parseRole role with
    | none => simp [hrole] at hw
    | some role' =>
      simp only [hrole, updateMembershipRole] at h hw
      rcases List.mem_pair.mp hw with rfl | rfl
      · simp only [Write.demotes, Bool.and_eq_true, decide_eq_true_eq] at hr
        split_ifs at h with _ hsame hdemoted
        · cases h
        · cases h
        · -- a member who is made a member is left unchanged, an administrator is counted first
          have hadmin : m.role = .admin := by
            cases hm : m.role with
            | admin => rfl
            | member => exact absurd (hm.trans hr.2.symm) hsame
          exact absurd ⟨hadmin, by rw [hr.2]; decide⟩ hdemoted
      · cases hr
  | removeMembership targetUserId organizationId =>
    obtain rfl := List.mem_singleton.mp hw
    simp only [Call.verdict, removeMembership] at h
    split_ifs at h with hadmin
    · cases h
    · exact ⟨⟨_, _, rfl, hr⟩, hadmin⟩
  | appointChildAdministrator parentOrganizationId childOrganizationId email =>
    rcases List.mem_pair.mp hw with rfl | rfl <;> cases hr
  | revokeChildAdministrator parentOrganizationId childOrganizationId targetUserId =>
    simp only [Call.verdict, revokeChildAdministrator] at h
    split_ifs at h
    cases h

/-- A call that takes a row of the organization it counts in takes none of another. -/
theorem demotes_elsewhere {call : Call} {m : OrganizationMembership} {x : Reading}
    (hm : ∀ r ∈ db.memberships, r.id = m.id → r.organizationId = call.operation.organizationId)
    {w : Write} (hw : w ∈ call.writes text m x) {r : OrganizationMembership}
    (hr : r ∈ db.memberships) (hd : w.demotes r) :
    r.organizationId = call.operation.organizationId := by
  obtain ⟨operation, actorUserId⟩ := call
  cases operation with
  | updateMembershipStatus targetUserId organizationId decision reason =>
    rcases List.mem_pair.mp hw with rfl | rfl <;> cases hd
  | updateMembershipRole targetUserId organizationId role =>
    simp only [Call.writes] at hw
    cases hrole : parseRole role with
    | none => simp [hrole] at hw
    | some role' =>
      rw [hrole] at hw
      rcases List.mem_pair.mp hw with rfl | rfl
      · simp only [Write.demotes, OrganizationMembership.of, Bool.and_eq_true,
          decide_eq_true_eq] at hd
        exact hd.1.2
      · cases hd
  | removeMembership targetUserId organizationId =>
    obtain rfl := List.mem_singleton.mp hw
    simp only [Write.demotes, OrganizationMembership.of, Bool.and_eq_true, decide_eq_true_eq] at hd
    exact hd.2
  | appointChildAdministrator parentOrganizationId childOrganizationId email =>
    rcases List.mem_pair.mp hw with rfl | rfl <;> cases hd
  | revokeChildAdministrator parentOrganizationId childOrganizationId targetUserId =>
    rcases List.mem_pair.mp hw with rfl | rfl
    · exact hm r hr (of_decide_eq_true hd)
    · cases hd

theorem relies_read {p p' : Point} {x : Reading} (ho : HasAdministrator db o)
    (h : Relies text o db p) (hread : p.next text db x = some p') : Relies text o db p' := by
  cases p with
  | authorize call seen =>
    obtain ⟨seen', -, rfl⟩ := Option.map_eq_some_iff.mp hread
    split
    · exact relies_of_hasAdministrator ho rfl trivial
    · exact relies_of_hasAdministrator ho rfl trivial
    · exact relies_start ho call
  | findChild call =>
    obtain rfl := Option.some.inj hread
    exact relies_afterChild ho call _
  | findCandidate call =>
    simp only [Point.next] at hread
    split at hread
    · next hop =>
      obtain rfl := Option.some.inj hread
      exact relies_afterCandidate ho hop _
    · cases hread
  | findMembership call userId organizationId =>
    obtain ⟨-, horganization, huser⟩ := h
    obtain rfl := Option.some.inj hread
    split
    · exact relies_of_hasAdministrator ho rfl trivial
    · exact relies_of_hasAdministrator ho rfl trivial
    · next m hv =>
      obtain ⟨hmem, -, horg⟩ := membership?_eq_some.mp (found_of_verdict hv (.inl rfl))
      obtain ⟨a, ha, haa⟩ := ho
      refine ⟨⟨a, ha, haa, nofun⟩, fun r hr hid => ?_⟩
      rw [db.memberships.valid.1.eq hr hmem hid, horg, horganization]
    · next m hv =>
      have hfound := found_of_verdict hv (.inr rfl)
      obtain ⟨hmem, hu, horg⟩ := membership?_eq_some.mp hfound
      rw [hfound] at hv
      obtain ⟨a, ha, haa⟩ := ho
      refine ⟨⟨a, ha, haa, fun w hw => Bool.eq_false_iff.mpr fun hd => ?_⟩, trivial⟩
      obtain ⟨⟨u, o', hop, hof⟩, hnot⟩ := demotes_uncounted hv hw hd
      simp only [OrganizationMembership.of, Bool.and_eq_true, decide_eq_true_eq] at hof
      have hsame : a = m := db.memberships.valid.2.1.eq ha hmem <| by
        rw [hof.1, hof.2, hu, horg, huser u o' hop, horganization, hop]
        rfl
      obtain ⟨-, hrole, hstatus⟩ := OrganizationMembership.isAdministratorOf_iff.mp haa
      exact hnot (hsame ▸ ⟨hrole, hstatus⟩)
  | countAdministrators call m =>
    obtain rfl := Option.some.inj hread
    split
    · exact relies_of_hasAdministrator ho rfl trivial
    · next hcount =>
      refine ⟨?_, trivial⟩
      by_cases hsame : call.operation.organizationId = o
      · exact exists_spared_by_call call m x (hsame ▸ assertNotLastAdministrator_eq_ok.mp hcount)
      · obtain ⟨a, ha, haa⟩ := ho
        refine ⟨a, ha, haa, fun w hw => Bool.eq_false_iff.mpr fun hd => hsame ?_⟩
        rw [← demotes_elsewhere h.2 hw ha hd]
        exact (OrganizationMembership.isAdministratorOf_iff.mp haa).1
  | writing | returned | failed => cases hread

/-- **The condition at work**: where another call commits, the administrator whom it spares is not
taken by a call that stands before a commit of its own, or it takes none at all. -/
theorem spared_commit {p q : Point} (hp : Spared o ((code text).writes p) db)
    (hq : Spared o ((code text).writes q) db)
    (hone : Takes text o db p → ¬ Takes text o db q)
    (hrep : (code text).replay ((code text).writes p) db = some db') :
    Spared o ((code text).writes q) db' := by
  by_cases htakes : Takes text o db p
  · obtain ⟨m, hm, ham, hnot⟩ := hp
    exact spared_statements hm ham hnot
      (fun w hw => Bool.eq_false_iff.mpr fun hd => hone htakes ⟨w, hw, m, hm, hd, ham⟩) hrep
  · obtain ⟨m, hm, ham, hnot⟩ := hq
    exact spared_statements hm ham
      (fun w hw => Bool.eq_false_iff.mpr fun hd => htakes ⟨w, hw, m, hm, hd, ham⟩) hnot hrep

theorem Relies.keeps {p : Point} (h : Relies text o db p)
    (hspared : Spared o ((code text).writes p) db')
    (hkeeps : ∀ m ∈ membershipRead p, Keeps m.id db db') : Relies text o db' p := by
  refine ⟨hspared, ?_⟩
  cases p with
  | findMembership => exact h.2
  | countAdministrators call m =>
    intro r' hr' hid
    obtain ⟨r, hr, hrid, -, horg, -⟩ := hkeeps m rfl r' hr' hid
    rw [horg]
    exact h.2 r hr hrid
  | authorize | findChild | findCandidate | writing | returned | failed => trivial

/-- **The outline**: the organization has an administrator, and each call spares one. -/
def administrators (text : TextFunctions) (o : Uuid) : (code text).Outline (OneAtATime text o) where
  Inv db _ := HasAdministrator db o
  At db _ p := Relies text o db p
  entry {db _ p} ho hp := by
    cases p with
    | authorize => exact relies_of_hasAdministrator ho rfl trivial
    | findChild | findCandidate | findMembership | countAdministrators | writing | returned
    | failed => cases hp
  read ho hat hread := relies_read ho hat hread
  rolledBack {db _ p} ho _ := by
    cases p <;> exact relies_of_hasAdministrator ho rfl trivial
  commit {s i c db} hok ho hat hc hne hrep := by
    have ho' : HasAdministrator db o := by
      obtain ⟨m, hm, ham, hnot⟩ := hat.1
      have hno : ∀ v ∈ ([] : List Write), v.demotes m = false := nofun
      obtain ⟨n, hn, han, -⟩ := spared_statements hm ham hnot hno hrep
      exact ⟨n, hn, han⟩
    refine ⟨ho', ?_, fun j d hj hd hd' => ?_⟩
    · obtain ⟨p, executed⟩ := c
      cases p with
      | writing => exact relies_of_hasAdministrator ho' rfl trivial
      | authorize | findChild | findCandidate | findMembership | countAdministrators | returned
      | failed => exact absurd rfl hne
    · have hlt := (List.getElem?_eq_some_iff.mp hd).1
      exact hd'.keeps (spared_commit hat.1 hd'.1 (fun htakes => hok c hc htakes j hlt hj d hd) hrep)
        fun _ _ => keeps_statements hrep
  outside {s x db} hok ho hx := by
    cases x with
    | users users =>
      obtain rfl := Option.some.inj hx
      exact ⟨ho, fun _ _ hat => hat⟩
    | organizations organizations =>
      obtain rfl := Option.some.inj hx
      exact ⟨ho, fun _ _ hat => hat⟩
    | join membership =>
      obtain ⟨ms, hms, rfl⟩ := Option.map_eq_some_iff.mp hx
      have hmem {m : OrganizationMembership} (hm : m ∈ s.db.memberships) : m ∈ ms :=
        (Table.mem_insert hms).mpr (.inl hm)
      obtain ⟨m, hm, ham⟩ := ho
      refine ⟨⟨m, hmem hm, ham⟩, fun c hc hat => ?_⟩
      obtain ⟨n, hn, han, hnot⟩ := hat.1
      refine hat.keeps ⟨n, hmem hn, han, hnot⟩ fun r hr => .of_subset fun r' hr' hid => ?_
      refine ((Table.mem_insert hms).mp hr').resolve_right ?_
      rintro rfl
      exact hok c hc r hr hid.symm

/-- **An organization keeps an administrator** in every run in which no two calls that take one stand
at once between their looks and their commits. -/
theorem administrator_remains {s t : Sessions Database Point Empty} (hs : (machine text).init s)
    (hrun : (machine text).Run (OneAtATime text o) s t) (ho : HasAdministrator s.db o) :
    HasAdministrator t.db o := by
  have hholds : (administrators text o).Holds s := ⟨ho, fun c hc => by simp [hs.2.2] at hc⟩
  exact (hholds.run hrun).inv

/-! ## Two administrators -/

instance (p : Point) : Decidable (Takes text o db p) :=
  inferInstanceAs (Decidable (∃ w ∈ (code text).writes p, ∃ m ∈ db.memberships.rows, _))

instance (s : Sessions Database Point Empty) :
    ∀ l : Label Point Reading Outside, Decidable (OneAtATime text o s l)
  | .commit i => inferInstanceAs (Decidable (∀ c ∈ s.calls[i]?, _ → ∀ j < s.calls.length, _))
  | .outside (.join _) =>
    inferInstanceAs (Decidable (∀ c ∈ s.calls, ∀ m ∈ membershipRead c.pc, _))
  | .outside (.users _) | .outside (.organizations _) | .call _ | .read _ _ | .write _
  | .rollback _ => inferInstanceAs (Decidable True)

/-- One organization, and its two administrators. -/
def twoAdministrators : Sessions Database Point Empty where
  db :=
    { users := [{ id := 10, email := "a" }, { id := 11, email := "b" }]
      organizations := [⟨1, none, 1, .active⟩]
      memberships := ⟨[
        { id := 20, userId := 10, organizationId := 1, role := .admin, status := .approved },
        { id := 21, userId := 11, organizationId := 1, role := .admin, status := .approved }],
        by decide⟩
      audits := ⟨[], OrganizationMembershipAudit.constraints_nil⟩ }
  history := []
  calls := []

/-- A call that begins, and the answers to its first three queries. -/
def begin (i : ℕ) (operation : Operation) (actorUserId : Uuid) :
    List (Label Point Reading Outside) :=
  [.call (.authorize ⟨operation, actorUserId⟩ {}), .read i { fetch := .user },
    .read i { fetch := .organization }, .read i { fetch := .membership }]

/-- One administrator demotes the other, and then cannot remove themselves: that call begins before the
demotion is committed, and counts after it. -/
theorem administrator_remains_of_demotion : ∃ t,
    (machine ⟨id, id⟩).Run (OneAtATime ⟨id, id⟩ 1) twoAdministrators t
      ∧ t.db.adminCount 1 = 1
      ∧ t.calls.map (·.pc) = [.returned, .failed (some .lastAdministrator)]
      ∧ HasAdministrator t.db 1 := by
  obtain ⟨t, hrun, hp⟩ := (machine ⟨id, id⟩).exists_run_guarded
    (p := fun s l => decide (OneAtATime ⟨id, id⟩ 1 s l)) (s := twoAdministrators)
    (q := fun t => decide (t.db.adminCount 1 = 1)
      && decide (t.calls.map (·.pc) = [.returned, .failed (some .lastAdministrator)]))
    (begin 0 (.updateMembershipRole 11 1 "MEMBER") 10
      ++ begin 1 (.removeMembership 10 1) 10 ++ [.read 1 {}]
      ++ [.read 0 {}, .read 0 { auditId := 100 }, .write 0, .write 0, .commit 0] ++ [.read 1 {}])
    (by decide)
  simp only [Bool.and_eq_true, decide_eq_true_eq] at hrun hp
  have hbefore : HasAdministrator twoAdministrators.db 1 := adminCount_pos.mp (by decide)
  exact ⟨t, hrun, hp.1, hp.2, administrator_remains ⟨trivial, rfl, rfl⟩ hrun hbefore⟩

/-- **An organization loses both administrators**: each demotes the other, and each count is made
before the other's update is committed. -/
theorem administrators_demote_each_other :
    HasAdministrator twoAdministrators.db 1 ∧ ∃ t,
      (machine ⟨id, id⟩).Run Machine.free twoAdministrators t ∧ ¬ HasAdministrator t.db 1 := by
  refine ⟨adminCount_pos.mp (by decide), ?_⟩
  obtain ⟨t, hrun, hp⟩ := (machine ⟨id, id⟩).exists_run
    (p := fun t => decide (t.db.adminCount 1 = 0)) (s := twoAdministrators)
    (begin 0 (.updateMembershipRole 11 1 "MEMBER") 10
      ++ begin 1 (.updateMembershipRole 10 1 "MEMBER") 11
      ++ [.read 0 {}, .read 1 {}, .read 0 { auditId := 100 }, .read 1 { auditId := 101 }, .write 0,
        .write 0, .commit 0, .write 1, .write 1, .commit 1])
    (by decide)
  have hzero : t.db.adminCount 1 = 0 := of_decide_eq_true hp
  exact ⟨t, hrun, fun h => by simp [adminCount_pos.mpr h |>.ne'] at hzero⟩

end ResourceHive.Organizations
