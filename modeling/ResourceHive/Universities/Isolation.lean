import ResourceHive.Universities.Policies

/-!
# Universities/Isolation — a university has a database of its own

All universities share the tables, and any number of requests run any statements on them.  What the
policies and the constraints together make of that:

* `own_database` — a university's statements are answered, and leave its rows, as if they had run on
  a database with its rows only;
* `university_unchanged` — its rows are what they were as long as only others run statements;
* `account_unchanged` — so is the row of an account, which any of its universities may show, as long
  as no statement is run for its user.

The last is not the policies' doing alone: `users_tenant` would let a university delete the accounts
of all its members, and the foreign key of their memberships does not.
-/

namespace ResourceHive.Universities

open RowSecurity (Rows Server Statement)

variable {D ρ : Type} {root id : Uuid} {db e : Rows (Row D)}

/-- The tables, the policies and the constraints, under whatever statements come. -/
abbrev server (D ρ : Type) : Machine (Server Settings ρ (Row D)) (Settings × Statement (Row D) ρ) :=
  (policies D).server Constraints

/-- What a university has of the server. -/
abbrev universityOf (root : Uuid) (s : Server Settings ρ (Row D)) : Server Settings ρ (Row D) :=
  (tenancy D).partOf Settings.rootOrganizationId root s

/-! ## Two universities, and an account in both -/

/-- A statement that only writes. -/
def writing (w : RowSecurity.Write (Row D)) : Statement (Row D) ℕ where
  read _ := 0
  write := some w

/-- A statement that counts the resources it sees. -/
def counting : Statement (Row D) ℕ where
  read v := (v (.rooted .resources)).length

/-- Universities 1 and 2 with a resource each, and user 7 a member of both. -/
def campus : Server Settings ℕ (Row String) where
  rows
    | .organizations => [⟨1, 1, "Uni"⟩, ⟨2, 2, "Tech"⟩]
    | .organizationMemberships => [⟨20, 7, 1, "MEMBER"⟩, ⟨21, 7, 2, "MEMBER"⟩]
    | .rooted .resources => [⟨30, some 1, "Lab"⟩, ⟨31, some 2, "Hall"⟩]
    | .users => [⟨7, "Ada"⟩]
    | _ => []

def renameResources (name : String) : RowSecurity.Write (Row String) where
  table := .rooted .resources
  change := .update (fun _ _ => true) fun _ (r : RootedRow String) => { r with data := name }

def createAccount (id : Uuid) (name : String) : RowSecurity.Write (Row String) where
  table := .users
  change := .insert fun _ => [(⟨id, name⟩ : UserRow String)]

/-- The second university, and a user of its own. -/
def techSchedule : List (Settings × Statement (Row String) ℕ) :=
  [(⟨some 2, some 8⟩, writing (createAccount 8 "Bob")),
    (⟨some 2, some 8⟩, writing (renameResources "Court"))]

/-! ## The rows of one university -/

/-- What a row of a university refers to is the university's. -/
theorem exists_in_part (h : Constraints db) {t s : TableName} {ref : Row D t → Uuid}
    (ht : (tenancy D).ownership t = .through s ref) {r : Row D t}
    (hr : r ∈ RowSecurity.slice ((tenancy D).part db root) db t) :
    ∃ p ∈ RowSecurity.slice ((tenancy D).part db root) db s, (tenancy D).key s p = ref r := by
  obtain ⟨hr, hpart⟩ := List.mem_filter.mp hr
  rw [Tenancy.part_iff (by rw [ht]; intro h; cases h)] at hpart
  obtain ⟨p, hp, hkey, howner⟩ := (h.sound.owner_eq_some_iff ht).mp hpart
  refine ⟨p, List.mem_filter.mpr ⟨hp, ?_⟩, hkey⟩
  by_cases hs : (tenancy D).ownership s = .shared
  · exact Tenancy.part_of_shared hs p
  · exact (Tenancy.part_iff hs).mpr howner

/-- The constraints hold of the rows of one university. -/
theorem Constraints.part (h : Constraints db) :
    Constraints (RowSecurity.slice ((tenancy D).part db root) db) where
  organizations := h.organizations.sublist (List.filter_sublist.map _)
  memberships := h.memberships.sublist (List.filter_sublist.map _)
  resources := h.resources.sublist (List.filter_sublist.map _)
  users := h.users.sublist (List.filter_sublist.map _)
  domain_organization _ hr := exists_in_part h rfl hr
  allowlist_organization _ hr := exists_in_part h rfl hr
  membership_organization _ hr := exists_in_part h rfl hr
  membership_user m hm := by
    obtain ⟨u, hu, hid⟩ := h.membership_user m (List.mem_of_mem_filter hm)
    exact ⟨u, List.mem_filter.mpr ⟨hu, rfl⟩, hid⟩
  audit_membership _ hr := exists_in_part h rfl hr
  rating_resource _ hr := exists_in_part h rfl hr

/-- **A university has a database of its own.** -/
theorem own_database {s t : Server Settings ρ (Row D)} {ls : List (Settings × Statement (Row D) ρ)}
    (hs : Constraints s.rows) (hexec : (server D ρ).exec s ls = some t)
    (hothers : ∀ l ∈ ls, l.1.rootOrganizationId ≠ some root →
      ∀ w, l.2.write = some w → w.table ≠ .users) :
    (server D ρ).exec (universityOf root s) (ls.filter fun l => l.1.rootOrganizationId = some root)
      = some (universityOf root t) := by
  refine policies_secure.partOf_exec (fun h => h.sound) (fun h => h.part) hs hexec
    fun l hl hne w hw hshared => hothers l hl hne w hw ?_
  generalize w.table = table at hshared
  cases table <;> first | rfl | cases hshared

/-- **A university's rows are changed by its own statements only.** -/
theorem university_unchanged {s t : Server Settings ρ (Row D)} (hs : Constraints s.rows)
    (hrun : (server D ρ).Run (fun _ l => l.1.rootOrganizationId ≠ some root) s t)
    (table : TableName) :
    (t.rows table).filter (fun r => (tenancy D).owner t.rows table r = some root)
      = (s.rows table).filter fun r => (tenancy D).owner s.rows table r = some root :=
  congrFun (policies_secure.owns_run (fun h => h.sound) hs hrun) table

/-- The second university's run on the campus. -/
theorem exists_tech_run : ∃ t : Server Settings ℕ (Row String),
    (server String ℕ).Run (fun _ l => l.1 = ⟨some 2, some 8⟩) campus t
      ∧ decide (t.rows .users = [⟨7, "Ada"⟩, ⟨8, "Bob"⟩]) = true := by
  obtain ⟨t, hrun, ht⟩ := (server String ℕ).exists_run_guarded
    (p := fun _ l => decide (l.1 = ⟨some 2, some 8⟩))
    (q := fun t => decide (t.rows .users = [⟨7, "Ada"⟩, ⟨8, "Bob"⟩])) (s := campus) techSchedule
    (by decide)
  exact ⟨t, hrun.mono fun _ _ h => of_decide_eq_true h, ht⟩

theorem university_unchanged_on_campus : ∃ t : Server Settings ℕ (Row String),
    t.rows .users = [⟨7, "Ada"⟩, ⟨8, "Bob"⟩]
      ∧ ∀ table, (t.rows table).filter (fun r => (tenancy String).owner t.rows table r = some 1)
        = (campus.rows table).filter fun r => (tenancy String).owner campus.rows table r = some 1 := by
  obtain ⟨t, hrun, ht⟩ := exists_tech_run
  refine ⟨t, of_decide_eq_true ht, university_unchanged (by decide) (hrun.mono fun _ l h => ?_)⟩
  rw [h]
  decide

/-! ## Accounts -/

theorem isUser_iff {settings : Settings} : settings.isUser id ↔ settings.userId = some id :=
  decide_eq_true_iff

/-- A write for someone else neither makes the account's row nor removes or changes it: where it is
seen for a membership, the membership stays and must still find its user. -/
theorem mem_users_iff (hdb : Constraints db) (he : Constraints e) {settings : Settings}
    {w : RowSecurity.Write (Row D)} (hw : (policies D).apply settings db w = some e)
    {u : UserRow D} (hother : settings.userId ≠ some u.id) : u ∈ e .users ↔ u ∈ db .users := by
  have hnew : ∀ u' ∈ e .users, u'.id = u.id → u' ∈ db .users := by
    intro u' hu' hid
    refine (RowSecurity.mem_of_apply hw hu').resolve_right fun hmay => hother ?_
    rw [← hid]
    exact isUser_iff.mp hmay
  refine ⟨fun hu => hnew u hu rfl, fun hu => ?_⟩
  by_contra hgone
  have htable : w.table = .users := by
    by_contra hne
    exact hgone ((RowSecurity.apply_of_ne hw fun h => hne h.symm).symm ▸ hu)
  have hsees : (policies D).sees settings db .users u = true := by
    by_contra hsee
    exact hgone (RowSecurity.mem_apply hw hu (Bool.eq_false_iff.mpr hsee))
  rcases Bool.or_eq_true_iff.mp hsees with hself | hmember
  · exact hother (isUser_iff.mp hself)
  · obtain ⟨m, hm, hmu⟩ := hasMembership_view.mp hmember
    have hstays : m ∈ e .organizationMemberships := by
      rw [RowSecurity.apply_of_ne hw (by rw [htable]; decide)]
      exact (RowSecurity.mem_view.mp hm).1
    obtain ⟨u', hu', hid⟩ := he.membership_user m hstays
    have hid' : u'.id = u.id := hid.trans (of_decide_eq_true hmu)
    obtain rfl := hdb.users.eq (hnew u' hu' hid') hu hid'
    exact hgone hu'

theorem find?_users_iff (h : Constraints db) {u : UserRow D} :
    (db .users).find? (fun u => u.id = id) = some u ↔ u ∈ db .users ∧ u.id = id := by
  constructor
  · exact fun hu => ⟨List.mem_of_find?_eq_some hu,
      of_decide_eq_true (List.find?_some (p := fun u : UserRow D => decide (u.id = id)) hu)⟩
  · rintro ⟨hu, rfl⟩
    exact h.users.find?_eq hu

/-- **An account is changed by its own user's statements only.** -/
theorem account_unchanged {s t : Server Settings ρ (Row D)} (hs : Constraints s.rows)
    (hrun : (server D ρ).Run (fun _ l => l.1.userId ≠ some id) s t) :
    (t.rows .users).find? (fun u => u.id = id) = (s.rows .users).find? fun u => u.id = id := by
  have hinv : Constraints t.rows ∧ (t.rows .users).find? (fun u => u.id = id)
      = (s.rows .users).find? fun u => u.id = id := by
    refine hrun.invariant (I := fun v => Constraints v.rows ∧
      (v.rows .users).find? (fun u => u.id = id) = (s.rows .users).find? fun u => u.id = id)
      ⟨hs, rfl⟩ fun {v l v'} hv hl hstep => ?_
    obtain ⟨-, ⟨-, hrows⟩ | ⟨w, -, happly, hC⟩⟩ := RowSecurity.server_cases hstep
    · rwa [hrows]
    · refine ⟨hC, Eq.trans (Option.ext fun u => ?_) hv.2⟩
      rw [find?_users_iff hC, find?_users_iff hv.1]
      refine and_congr_left fun hid => ?_
      exact mem_users_iff hv.1 hC happly (hid ▸ hl)
  exact hinv.2

theorem account_unchanged_on_campus : ∃ t : Server Settings ℕ (Row String),
    t.rows .users = [⟨7, "Ada"⟩, ⟨8, "Bob"⟩]
      ∧ (t.rows .users).find? (fun u => u.id = 7)
        = (campus.rows .users).find? fun u => u.id = 7 := by
  obtain ⟨t, hrun, ht⟩ := exists_tech_run
  refine ⟨t, of_decide_eq_true ht, account_unchanged (by decide) (hrun.mono fun _ l h => ?_)⟩
  rw [h]
  decide

end ResourceHive.Universities
