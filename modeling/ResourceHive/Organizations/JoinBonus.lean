import ResourceHive.Organizations.AuditTrail
import ResourceHive.Points.Balance

/-!
# Organizations/JoinBonus — the award of a join bonus, a trigger on `organization_memberships`

Whatever writes a membership, the same trigger fires (`awardOrganizationJoinBonus`), and its insert
into the ledger fires the balance trigger in turn, inside `Ledger.insert`.  So it is statements on
the tables that are modelled here, and the writes of the services are lists of them
(`memberships_of_write`, `memberships_of_request`, `memberships_of_verify`).

When a bonus is due is said apart from the trigger, by the **moments** of a run (`Moment.of?`): a
membership moved into APPROVED while its organization was active with a positive bonus.
-/

namespace ResourceHive

/-! ## Join bonuses in the ledger -/

/-- Whether the entry is a join bonus of the pair. -/
def PointTransaction.isJoinBonus (userId organizationId : Uuid) (e : PointTransaction) : Bool :=
  decide (e.transactionType = .joinBonus)
    && decide ((e.userId, e.sourceOrganizationId) = (userId, some organizationId))

namespace Ledger

/-- The join bonuses of a pair. -/
def joinBonuses (L : Ledger) (userId organizationId : Uuid) : List PointTransaction :=
  L.transactions.rows.filter (·.isJoinBonus userId organizationId)

/-- The sum of the entries of a user at a university that are of a type in `p`. -/
def total (p : TransactionType → Bool) (L : Ledger) (userId rootOrganizationId : Uuid) : ℤ :=
  ((L.transactions.rows.filter fun e =>
    e.of userId rootOrganizationId && p e.transactionType).map (·.amount)).sum

/-- INSERT of a join bonus, `ON CONFLICT (user_id, source_organization_id) WHERE transaction_type =
'JOIN_BONUS' DO NOTHING`: where the pair has one, there is no insert and so no trigger either. -/
def insertJoinBonus (refs : References) (userId organizationId : Uuid) (e : PointTransaction)
    (L : Ledger) : Option Ledger :=
  if L.transactions.rows.any (·.isJoinBonus userId organizationId) then some L else L.insert refs e

end Ledger

namespace Organizations.JoinBonus

/-! ## Tables -/

/-- A row of `organizations`, with the columns that an award reads. -/
structure BonusOrganization extends Organization where
  name : String
  joinBonusPoints : ℤ := 0
  deriving DecidableEq, Repr

namespace BonusOrganization

/-- `join_bonus_points INTEGER NOT NULL CHECK (join_bonus_points >= 0)`. -/
def Checks (o : BonusOrganization) : Prop := Integer4 o.joinBonusPoints ∧ 0 ≤ o.joinBonusPoints

instance : DecidablePred Checks := fun _ => inferInstanceAs (Decidable (_ ∧ _))

/-- The primary key and the CHECK. -/
def Constraints (rows : List BonusOrganization) : Prop :=
  Table.Unique (fun o => o.id) rows ∧ Table.Check Checks rows

instance : DecidablePred Constraints := fun _ => inferInstanceAs (Decidable (_ ∧ _))

end BonusOrganization

/-- A moment at which a bonus was due, and which. -/
structure Moment where
  userId : Uuid
  organizationId : Uuid
  rootOrganizationId : Uuid
  joinBonusPoints : ℤ
  deriving DecidableEq, Repr

/-- Whether the moment is one of the pair. -/
def Moment.of (userId organizationId : Uuid) (m : Moment) : Bool :=
  decide ((m.userId, m.organizationId) = (userId, organizationId))

structure Database where
  users : List User
  organizations : Table BonusOrganization BonusOrganization.Constraints
  memberships : Table OrganizationMembership OrganizationMembership.Constraints
  /-- `(id, user_id, root_organization_id)`. -/
  bookings : List (Uuid × Uuid × Uuid)
  ledger : Ledger
  /-- The moments so far: a record of the run, which nothing reads. -/
  moments : List Moment

namespace Database

def user? (db : Database) (id : Uuid) : Option User := db.users.find? (·.id = id)

def organization? (db : Database) (id : Uuid) : Option BonusOrganization :=
  db.organizations.find? fun o => decide (o.id = id)

def membership? (db : Database) (userId organizationId : Uuid) : Option OrganizationMembership :=
  db.memberships.find? (·.of userId organizationId)

/-- The keys that the ledger refers to. -/
def references (db : Database) : References where
  users := db.users.map (·.id)
  organizations := db.organizations.rows.map fun o => (o.id, o.rootOrganizationId)
  bookings := db.bookings

end Database

/-! ## The trigger -/

/-- OLD and NEW of a row trigger. -/
structure Change where
  old : Option OrganizationMembership
  new : OrganizationMembership

/-- **When a bonus is due.** -/
def Moment.of? (db : Database) (c : Change) : Option Moment :=
  if c.new.status = .approved ∧ ∀ m ∈ c.old, m.status ≠ .approved then
    (db.organization? c.new.organizationId).bind fun o =>
      if o.status = .active ∧ 0 < o.joinBonusPoints then
        some ⟨c.new.userId, c.new.organizationId, o.rootOrganizationId, o.joinBonusPoints⟩
      else none
  else none

/-- The entry of an award; the identifier and the time are defaults of their columns. -/
def joinBonus (x : Supply) (m : OrganizationMembership) (o : BonusOrganization) :
    PointTransaction where
  id := x.ids m.id
  userId := m.userId
  rootOrganizationId := some o.rootOrganizationId
  amount := o.joinBonusPoints
  transactionType := .joinBonus
  sourceOrganizationId := some m.organizationId
  description := some ("Join bonus for " ++ o.name)
  createdAt := x.now

/-- **`award_organization_join_bonus`**, for one row. -/
def awardOrganizationJoinBonus (db : Database) (x : Supply) (L : Ledger) (c : Change) :
    Option Ledger :=
  if c.new.status ≠ .approved then some L
  else if c.old.any fun m => decide (m.status = .approved) then some L
  else
    match db.organizations.find? fun o =>
      decide (o.id = c.new.organizationId) && decide (o.status = .active) with
    | none => some L
    | some o =>
      if o.joinBonusPoints ≤ 0 then some L
      else L.insertJoinBonus db.references c.new.userId c.new.organizationId (joinBonus x c.new o)

/-- …for the rows of a statement, one after the other. -/
def Database.award (db : Database) (x : Supply) (changes : List Change) : Option Database :=
  (changes.foldlM (awardOrganizationJoinBonus db x) db.ledger).map fun ledger =>
    { db with ledger }

/-- The moments among the rows of a statement. -/
def Database.record (db : Database) (changes : List Change) : Database :=
  { db with moments := db.moments ++ changes.filterMap (Moment.of? db) }

/-! ## Statements -/

/-- What an UPDATE of memberships sets. -/
structure MembershipData where
  role : Option MembershipRole := none
  status : Option MembershipStatus := none
  reviewedBy : Option (Option Uuid) := none
  reviewedAt : Option (Option Timestamp) := none
  reviewNote : Option (Option String) := none

def MembershipData.apply (data : MembershipData) (m : OrganizationMembership) :
    OrganizationMembership :=
  { m with
    role := data.role.getD m.role
    status := data.status.getD m.status
    reviewedBy := data.reviewedBy.getD m.reviewedBy
    reviewedAt := data.reviewedAt.getD m.reviewedAt
    reviewNote := data.reviewNote.getD m.reviewNote }

structure UpdateOrganizationDto where
  name : Option String := none
  status : Option AccountStatus := none
  joinBonusPoints : Option ℤ := none

def UpdateOrganizationDto.apply (data : UpdateOrganizationDto) (o : BonusOrganization) :
    BonusOrganization :=
  { o with
    name := data.name.getD o.name
    status := data.status.getD o.status
    joinBonusPoints := data.joinBonusPoints.getD o.joinBonusPoints }

inductive Write
  | insertOrganization (organization : BonusOrganization)
  | updateOrganization (id : Uuid) (data : UpdateOrganizationDto)
  | insertMembership (membership : OrganizationMembership) (supply : Supply)
  /-- `upsert` with an empty `update`. -/
  | upsertMembership (membership : OrganizationMembership) (supply : Supply)
  | updateMemberships (p : OrganizationMembership → Bool) (data : MembershipData) (supply : Supply)
  | deleteMemberships (p : OrganizationMembership → Bool)
  /-- An entry of another type: join bonuses are inserted by the trigger alone. -/
  | insertTransaction (entry : PointTransaction)

/-- `reject_platform_admin_membership`, and the foreign keys. -/
def Database.Admits (db : Database) (m : OrganizationMembership) : Prop :=
  (db.user? m.userId).any (·.platformRole = .user) ∧ (db.organization? m.organizationId).isSome
    ∧ ∀ u ∈ m.reviewedBy, (db.user? u).isSome

instance (db : Database) : DecidablePred db.Admits := fun _ =>
  inferInstanceAs (Decidable (_ ∧ _ ∧ _))

/-- INSERT of one membership. -/
def Database.insertMembership (db : Database) (m : OrganizationMembership) (x : Supply) :
    Option Database :=
  if db.Admits m then
    (db.memberships.insert m).bind fun memberships =>
      ({ db.record [⟨none, m⟩] with memberships }).award x [⟨none, m⟩]
  else none

/-- The rows that an UPDATE of memberships changes. -/
def Database.changes (db : Database) (p : OrganizationMembership → Bool) (data : MembershipData) :
    List Change :=
  (db.memberships.rows.filter p).map fun m => ⟨some m, data.apply m⟩

/-- UPDATE of the memberships matching `p`.  The first trigger is of the columns `role` and
`status`, the award of `status` alone. -/
def Database.updateMemberships (db : Database) (p : OrganizationMembership → Bool)
    (data : MembershipData) (x : Supply) : Option Database :=
  let changes := db.changes p data
  if (data.role.isSome ∨ data.status.isSome → ∀ c ∈ changes,
        (db.user? c.new.userId).all (·.platformRole = .user))
      ∧ (changes ≠ [] → ∀ r ∈ data.reviewedBy, ∀ u ∈ r, (db.user? u).isSome) then
    (db.memberships.update p data.apply).bind fun memberships =>
      ({ db.record changes with memberships }).award x
        (if data.status.isSome then changes else [])
  else none

/-- **One statement**, with the triggers it fires. -/
def Write.exec : Write → Database → Option Database
  | .insertOrganization organization, db =>
    (db.organizations.insert organization).map fun organizations => { db with organizations }
  | .updateOrganization id data, db =>
    if (db.organization? id).isSome then
      (db.organizations.update (fun o => decide (o.id = id)) data.apply).map fun organizations =>
        { db with organizations }
    else none
  | .insertMembership membership supply, db => db.insertMembership membership supply
  | .upsertMembership membership supply, db =>
    if (db.membership? membership.userId membership.organizationId).isSome then some db
    else db.insertMembership membership supply
  | .updateMemberships p data supply, db => db.updateMemberships p data supply
  | .deleteMemberships p, db =>
    (db.memberships.delete p).map fun memberships => { db with memberships }
  | .insertTransaction entry, db =>
    if entry.transactionType = .joinBonus then none
    else (db.ledger.insert db.references entry).map fun ledger => { db with ledger }

/-! ## The machine -/

/-- A transaction is the list of its statements, whatever was read before choosing them. -/
inductive Point
  | transaction (statements : List Write)
  | returned
  | failed

/-- What changes beside: accounts, and the bookings that entries refer to. -/
structure Others where
  users : List User
  bookings : List (Uuid × Uuid × Uuid)

/-- Any transactions on the tables, of either service; the statements of one, and the awards they
make, are in the order of its commit. -/
def code : Code Database Point Write Unit Others Empty where
  entry
    | .transaction _ => true
    | _ => false
  read _ _ _ := none
  writes
    | .transaction ws => ws
    | _ => []
  exec := Write.exec
  committed _ := .returned
  rolledBack _ := .failed
  emits _ := []
  outside x db := some { db with users := x.users, bookings := x.bookings }

/-- The machine, from a given database. -/
def machine (start : Database) : Machine (Sessions Database Point Empty) (Label Point Unit Others) :=
  code.machine fun db => db = start

/-- Nobody has a join bonus, and none has been due: members, balances and other entries there may
be. -/
def Database.Unpaid (db : Database) : Prop :=
  (∀ e ∈ db.ledger.transactions, e.transactionType ≠ .joinBonus) ∧ db.moments = []

/-! ## The writes of the services

A statement of the membership service, as it is modelled without the award, leaves the memberships
that the statement given here for it leaves; so do the transactions of `requestMembership` and
`verifyEmail`. -/

/-- **The statement of the membership service.** -/
def Write.ofService (x : Supply) : Organizations.Write → Option Write
  | .updateRole userId organizationId role =>
    some (.updateMemberships (·.of userId organizationId) { role := some role } x)
  | .demote membershipId =>
    some (.updateMemberships (fun m => decide (m.id = membershipId)) { role := some .member } x)
  | .review membershipId decision reviewedBy reviewedAt reviewNote =>
    some (.updateMemberships
      (fun m => decide (m.id = membershipId) && decide (m.status ∈ decision.allowedStatuses))
      { status := some decision.status, reviewedBy := some (some reviewedBy)
        reviewedAt := some (some reviewedAt), reviewNote := some reviewNote } x)
  | .appoint membershipId reviewedBy reviewedAt =>
    some (.updateMemberships
      (fun m => decide (m.id = membershipId) && decide (m.status ∈ [.pending, .approved]))
      { status := some .approved, role := some .admin, reviewedBy := some (some reviewedBy)
        reviewedAt := some (some reviewedAt), reviewNote := some none } x)
  | .delete userId organizationId => some (.deleteMemberships (·.of userId organizationId))
  | .audit _ => none

/-- What the rules of a request or of a verification admit. -/
def upsertMemberships (userId : Uuid) (admitted : List Uuid) (x awards : Supply) : List Write :=
  admitted.map fun organizationId => .upsertMembership (joined x.ids userId organizationId) awards

/-- **The writes of `requestMembership`.** -/
def requestMembership (userId organizationId : Uuid) (admitted : List Uuid) (x awards : Supply) :
    List Write :=
  if organizationId ∈ admitted then upsertMemberships userId admitted x awards
  else [.insertMembership { id := x.ids organizationId, userId, organizationId } awards]

section Services

variable {d d' : Organizations.Database} {db db' : Database} {x awards : Supply}

theorem memberships_award {changes : List Change} (h : db.award x changes = some db') :
    db'.memberships = db.memberships := by
  obtain ⟨ledger, -, rfl⟩ := Option.map_eq_some_iff.mp h
  rfl

theorem memberships_update {p : OrganizationMembership → Bool} {data : MembershipData}
    (h : db.updateMemberships p data x = some db') :
    db'.memberships.rows = db.memberships.rows.map fun m => if p m then data.apply m else m := by
  simp only [Database.updateMemberships, Option.ite_none_right_eq_some,
    Option.bind_eq_some_iff] at h
  obtain ⟨-, memberships, hupd, haward⟩ := h
  rw [memberships_award haward]
  exact Table.update_eq_some.mp hupd

theorem memberships_insert {m : OrganizationMembership} (h : db.insertMembership m x = some db') :
    db'.memberships.rows = db.memberships.rows ++ [m] := by
  simp only [Database.insertMembership, Option.ite_none_right_eq_some,
    Option.bind_eq_some_iff] at h
  obtain ⟨-, memberships, hins, haward⟩ := h
  rw [memberships_award haward]
  exact Table.insert_eq_some.mp hins

theorem memberships_updateOne {p : OrganizationMembership → Bool}
    {f : OrganizationMembership → OrganizationMembership} (h : d.updateOne p f = some d') :
    d'.memberships.rows = d.memberships.rows.map fun m => if p m then f m else m := by
  simp only [Organizations.Database.updateOne, Option.ite_none_right_eq_some,
    Option.map_eq_some_iff] at h
  obtain ⟨-, memberships, hupd, rfl⟩ := h
  exact Table.update_eq_some.mp hupd

theorem memberships_create {m : OrganizationMembership} (h : d.createMembership m = some d') :
    d'.memberships.rows = d.memberships.rows ++ [m] := by
  simp only [Organizations.Database.createMembership, Option.ite_none_right_eq_some,
    Option.map_eq_some_iff] at h
  obtain ⟨-, memberships, hins, rfl⟩ := h
  exact Table.insert_eq_some.mp hins

/-- **A statement of the membership service.** -/
theorem memberships_of_write {w : Organizations.Write} {w' : Write}
    (hsame : d.memberships.rows = db.memberships.rows) (hw : w.exec d = some d')
    (hof : Write.ofService x w = some w') (hw' : w'.exec db = some db') :
    d'.memberships.rows = db'.memberships.rows := by
  cases w with
  | updateRole | demote =>
    obtain rfl := Option.some.inj hof
    rw [memberships_updateOne hw, memberships_update hw', hsame]
    rfl
  | review | appoint =>
    obtain rfl := Option.some.inj hof
    simp only [Organizations.Write.exec, Option.ite_none_right_eq_some] at hw
    rw [memberships_updateOne hw.2, memberships_update hw', hsame]
    rfl
  | delete =>
    obtain rfl := Option.some.inj hof
    simp only [Organizations.Write.exec, Option.ite_none_right_eq_some, Option.bind_eq_some_iff,
      Option.map_eq_some_iff] at hw
    obtain ⟨-, memberships, hdel, audits, -, rfl⟩ := hw
    obtain ⟨memberships', hdel', rfl⟩ := Option.map_eq_some_iff.mp hw'
    exact (Table.delete_eq_some.mp hdel).trans
      ((congrArg _ hsame).trans (Table.delete_eq_some.mp hdel').symm)
  | audit => cases hof

/-- **An upsert.** -/
theorem memberships_of_upsert {userId organizationId : Uuid}
    (hsame : d.memberships.rows = db.memberships.rows)
    (hup : d.upsertMembership x.ids userId organizationId = some d')
    (hw : (Write.upsertMembership (joined x.ids userId organizationId) awards).exec db = some db') :
    d'.memberships.rows = db'.memberships.rows := by
  have hfind : d.membership? userId organizationId = db.membership? userId organizationId :=
    congrArg (List.find? _) hsame
  simp only [Organizations.Database.upsertMembership, hfind] at hup
  change (if (db.membership? userId organizationId).isSome then some db
    else db.insertMembership (joined x.ids userId organizationId) awards) = some db' at hw
  cases hm : db.membership? userId organizationId with
  | none =>
    rw [hm] at hup
    rw [if_neg (by simp [hm])] at hw
    rw [memberships_create hup, memberships_insert hw, hsame]
  | some m =>
    rw [hm] at hup
    rw [if_pos (by simp [hm])] at hw
    obtain rfl := Option.some.inj hup
    obtain rfl := Option.some.inj hw
    exact hsame

theorem memberships_of_upserts {userId : Uuid} : ∀ {admitted : List Uuid}
    {d d' : Organizations.Database} {db db' : Database},
    d.memberships.rows = db.memberships.rows →
    AuditTrail.upsertMemberships d userId admitted x = some d' →
    code.replay (upsertMemberships userId admitted x awards) db = some db' →
    d'.memberships.rows = db'.memberships.rows
  | [], _, _, _, _, hsame, hup, hrep => by
      obtain rfl := Option.some.inj hup
      obtain rfl := Option.some.inj hrep
      exact hsame
  | o :: admitted, _, _, _, _, hsame, hup, hrep => by
      rw [AuditTrail.upsertMemberships, List.foldlM_cons, Option.bind_eq_bind,
        Option.bind_eq_some_iff] at hup
      rw [upsertMemberships, List.map_cons, Code.replay_cons, Option.bind_eq_some_iff] at hrep
      obtain ⟨d₁, hfirst, hup⟩ := hup
      obtain ⟨db₁, hfirst', hrep⟩ := hrep
      exact memberships_of_upserts (memberships_of_upsert hsame hfirst hfirst') hup hrep

/-- **The transaction of `requestMembership`.** -/
theorem memberships_of_request {userId organizationId : Uuid} {admitted : List Uuid}
    (hsame : d.memberships.rows = db.memberships.rows)
    (hreq : AuditTrail.request d userId organizationId admitted x = some d')
    (hrep : code.replay (requestMembership userId organizationId admitted x awards) db = some db') :
    d'.memberships.rows = db'.memberships.rows := by
  rw [AuditTrail.request] at hreq
  rw [requestMembership] at hrep
  split_ifs at hreq hrep
  · exact memberships_of_upserts hsame hreq hrep
  · rw [Code.replay_cons, Option.bind_eq_some_iff] at hrep
    obtain ⟨db₁, hins, hrep⟩ := hrep
    obtain rfl := Option.some.inj hrep
    rw [memberships_create hreq, memberships_insert hins, hsame]

/-- **The transaction of `verifyEmail`.** -/
theorem memberships_of_verify {userId : Uuid} {admitted : List Uuid}
    (hsame : d.memberships.rows = db.memberships.rows)
    (hver : AuditTrail.verify d userId admitted x = some d')
    (hrep : code.replay (upsertMemberships userId admitted x awards) db = some db') :
    d'.memberships.rows = db'.memberships.rows := by
  obtain ⟨d₁, hup, rfl⟩ := Option.map_eq_some_iff.mp hver
  exact (memberships_of_upserts hsame hup hrep : d₁.memberships.rows = _)

end Services

end Organizations.JoinBonus

end ResourceHive
