import ResourceHive.Machinery.Text
import ResourceHive.Organizations.AutoApproval
import ResourceHive.Organizations.Guards

/-!
# Organizations/Admission — a request is approved where a verification would have joined

`J`, the organizations that `verifyEmail` joins, is the union of the active paths from the
organizations a rule matches (`Rules.Joins`).  A request for one of them is approved at once and
joins those on the paths through it; any other request is left pending (`auto_approval_agrees`).
The row policies hide nothing of that from a session of the university.
-/

namespace ResourceHive.Organizations

open Ancestry

/-! ## What the transactions write -/

variable {T : Hierarchy} {db : Database} {ids : Uuid → Uuid} {userId : Uuid} {l : List Uuid}

/-- The identifiers for new memberships are new. -/
def Fresh (db : Database) (ids : Uuid → Uuid) : Prop :=
  Function.Injective ids ∧ ∀ m ∈ db.memberships, ∀ id, m.id ≠ ids id

/-- The organizations of a list the user has no membership in. -/
def Database.unjoined (db : Database) (userId : Uuid) (l : List Uuid) : List Uuid :=
  l.filter fun id => (db.membership? userId id).isNone

theorem mem_unjoined {id : Uuid} :
    id ∈ db.unjoined userId l ↔ id ∈ l ∧ db.membership? userId id = none := by
  rw [Database.unjoined, List.mem_filter, Option.isNone_iff_eq_none]

/-- A membership under a new id in an organization the user has none in. -/
theorem exists_insert {m : OrganizationMembership} (hid : ∀ x ∈ db.memberships, x.id ≠ m.id)
    (hnone : db.membership? m.userId m.organizationId = none) (hnote : m.reviewNote = none) :
    ∃ memberships, db.memberships.insert m = some memberships := by
  refine Option.isSome_iff_exists.mp (Table.replace_isSome.mpr ⟨?_, ?_, fun x hx => ?_⟩)
  · exact db.memberships.valid.1.append hid
  · refine db.memberships.valid.2.1.append fun x hx hkey => ?_
    have hx' := membership?_eq_some.mpr ⟨hx, (Prod.mk.inj hkey).1, (Prod.mk.inj hkey).2⟩
    rw [hnone] at hx'
    cases hx'
  · rcases List.mem_append.mp hx with hx | hx
    · exact db.memberships.valid.2.2 x hx
    · rw [List.mem_singleton.mp hx, NoteCheck, hnote]
      rintro n ⟨⟩

/-- `createMembership`, in an organization that is there, of a user who is no administrator of the
platform. -/
theorem exists_createMembership {m : OrganizationMembership}
    (horganization : (db.organization? m.organizationId).isSome)
    (huser : (db.user? m.userId).any (·.platformRole = .user))
    (hid : ∀ x ∈ db.memberships, x.id ≠ m.id)
    (hnone : db.membership? m.userId m.organizationId = none) (hnote : m.reviewNote = none) :
    ∃ memberships, db.createMembership m = some { db with memberships }
      ∧ memberships.rows = db.memberships.rows ++ [m] := by
  obtain ⟨memberships, hinsert⟩ := exists_insert hid hnone hnote
  refine ⟨memberships, ?_, Table.insert_eq_some.mp hinsert⟩
  rw [Database.createMembership, if_pos ⟨horganization, huser⟩, hinsert]
  rfl

/-- **The upserts of a list of organizations** add a membership in those the user has none in, and
leave the memberships there are as they are. -/
theorem exists_upsert (hinjective : Function.Injective ids)
    (huser : (db.user? userId).any (·.platformRole = .user))
    (horganizations : ∀ id ∈ l, (db.organization? id).isSome)
    (hids : ∀ id ∈ l, ∀ m ∈ db.memberships, m.id ≠ ids id) (hnodup : l.Nodup) :
    ∃ memberships, l.foldlM (Database.upsertMembership ids userId) db = some { db with memberships }
      ∧ memberships.rows
        = db.memberships.rows ++ (db.unjoined userId l).map (joined ids userId) := by
  induction l generalizing db with
  | nil => exact ⟨db.memberships, rfl, (List.append_nil _).symm⟩
  | cons id l ih =>
    obtain ⟨hnotin, hnodup⟩ := List.nodup_cons.mp hnodup
    obtain ⟨horganization, horganizations⟩ := List.forall_mem_cons.mp horganizations
    obtain ⟨hid, hids⟩ := List.forall_mem_cons.mp hids
    rw [List.foldlM_cons, Database.upsertMembership]
    cases hrow : db.membership? userId id with
    | some m =>
      obtain ⟨memberships, hfold, hrows⟩ := ih huser horganizations hids hnodup
      refine ⟨memberships, hfold, ?_⟩
      rw [hrows, Database.unjoined, Database.unjoined, List.filter_cons_of_neg (by simp [hrow])]
    | none =>
      obtain ⟨added, hcreate, hadded⟩ := exists_createMembership (m := joined ids userId id)
        horganization huser hid hrow rfl
      have hsame (id' : Uuid) (hne : id' ∈ l) :
          ({ db with memberships := added } : Database).membership? userId id'
            = db.membership? userId id' := by
        rw [Database.membership?, Table.find?_insert (Table.insert_eq_some.mpr hadded)]
        have hother : (joined ids userId id).of userId id' = false := by
          simp only [OrganizationMembership.of, joined, decide_true, Bool.true_and]
          exact decide_eq_false fun heq => hnotin (heq ▸ hne)
        rw [hother]
        exact Option.or_none
      have hids' : ∀ id' ∈ l, ∀ m ∈ added, m.id ≠ ids id' := by
        intro id' hid' m hm
        rcases (Table.mem_insert (Table.insert_eq_some.mpr hadded)).mp hm with hm | rfl
        · exact hids id' hid' m hm
        · exact fun heq => hnotin (hinjective heq ▸ hid')
      obtain ⟨memberships, hfold, hrows⟩ := @ih { db with memberships := added } huser
        horganizations hids' hnodup
      refine ⟨memberships, ?_, ?_⟩
      · simp only [hcreate]
        exact hfold
      · have hrest : ({ db with memberships := added } : Database).unjoined userId l
            = db.unjoined userId l :=
          List.filter_congr fun id' hid' => congrArg Option.isNone (hsame id' hid')
        rw [hrows, hrest, Database.unjoined, Database.unjoined,
          List.filter_cons_of_pos (by simp [hrow]), List.map_cons]
        exact (congrArg (· ++ _) hadded).trans (List.append_cons ..).symm

/-- The entries used are marked, which no constraint forbids. -/
theorem exists_consume (db : Registry) (consumed : List Uuid) (now : Timestamp) :
    ∃ allowlist, db.consume consumed now = some { db with allowlist }
      ∧ allowlist.rows = db.allowlist.rows.map fun e =>
        if e.id ∈ consumed ∧ e.usedAt = none then { e with usedAt := some now } else e := by
  have hkeys : OrganizationEmailAllowlist.Constraints (db.allowlist.rows.map fun e =>
      if decide (e.id ∈ consumed) && e.usedAt.isNone then { e with usedAt := some now } else e) :=
    ⟨db.allowlist.valid.1.map fun e => by split <;> rfl,
      db.allowlist.valid.2.map fun e => by split <;> rfl⟩
  obtain ⟨allowlist, hupdate⟩ := Option.isSome_iff_exists.mp (Table.replace_isSome.mpr hkeys)
  refine ⟨allowlist, ?_, ?_⟩
  · rw [Registry.consume, Table.update, hupdate]
    rfl
  · rw [Table.replace_eq_some.mp hupdate]
    simp only [Bool.and_eq_true, decide_eq_true_eq, Option.isNone_iff_eq_none]

/-- **`join`** succeeds, and writes what was admitted. -/
theorem exists_join {db : Registry} {a : Admission} (now : Timestamp)
    (huser : (db.user? userId).any (·.platformRole = .user)) (hfresh : Fresh db.toDatabase ids)
    (horganizations : ∀ id ∈ a.organizationIds, (db.organization? id).isSome)
    (hnodup : a.organizationIds.Nodup) :
    ∃ memberships allowlist, db.join ids userId a now = some { db with memberships, allowlist }
      ∧ memberships.rows = db.memberships.rows
          ++ (db.unjoined userId a.organizationIds).map (joined ids userId)
      ∧ allowlist.rows = db.allowlist.rows.map fun e =>
          if e.id ∈ a.consumedAllowlistIds ∧ e.usedAt = none then { e with usedAt := some now }
          else e := by
  obtain ⟨memberships, hupsert, hrows⟩ := exists_upsert hfresh.1 huser horganizations
    (fun id _ m hm => hfresh.2 m hm id) hnodup
  obtain ⟨allowlist, hconsume, hentries⟩ := exists_consume
    { db with memberships } a.consumedAllowlistIds now
  refine ⟨memberships, allowlist, ?_, hrows, hentries⟩
  rw [Registry.join, hupsert]
  exact hconsume

/-! ## The rules of an email -/

/-- The tables that say whom an email admits where. -/
structure Rules where
  organizations : List Organization
  emailDomains : Table OrganizationEmailDomain OrganizationEmailDomain.Constraints
  allowlist : Table OrganizationEmailAllowlist OrganizationEmailAllowlist.Constraints

def Registry.rules (db : Registry) : Rules := ⟨db.organizations, db.emailDomains, db.allowlist⟩

namespace Rules

/-- The organization is in the university. -/
def Within (R : Rules) (root id : Uuid) : Prop :=
  ∃ o ∈ R.organizations, o.id = id ∧ o.rootOrganizationId = root

/-- An unused entry for the email in the university. -/
def Entry (R : Rules) (email : String) (root : Uuid) (e : OrganizationEmailAllowlist) : Prop :=
  e ∈ R.allowlist ∧ e.email = email ∧ e.usedAt = none ∧ R.Within root e.organizationId

/-- A rule matches the organization: an entry, or the one of the domain, if it joins
automatically. -/
def Matches (R : Rules) (email : String) (root id : Uuid) : Prop :=
  (∃ e, R.Entry email root e ∧ e.organizationId = id)
    ∨ ∃ d ∈ R.emailDomains, d.domain = domainPart email ∧ d.autoJoin = true ∧ d.organizationId = id

/-- **The organizations on the active paths that count**: all of them for a verification, those
through the organization requested for a request. -/
def Joins (R : Rules) (email : String) (root : Uuid) (good : List Uuid → Prop) (id : Uuid) : Prop :=
  ∃ r, R.Matches email root r ∧ ∃ path, ActivePath R.organizations r path ∧ good path ∧ id ∈ path

/-- The entries whose path counts. -/
def Consumes (R : Rules) (email : String) (root : Uuid) (good : List Uuid → Prop) (id : Uuid) :
    Prop :=
  ∃ e, R.Entry email root e ∧ e.id = id
    ∧ ∃ path, ActivePath R.organizations e.organizationId path ∧ good path

end Rules

/-- **A normalised email**: an address that trimming and lowercasing leave alone. -/
structure Normalised (text : TextFunctions) (email : String) : Prop where
  trimmed : text.trim email = email
  lowercase : text.toLowerCase email = email
  domain_trimmed : text.trim (domainPart email) = domainPart email
  domain_lowercase : text.toLowerCase (domainPart email) = domainPart email
  domain_nonempty : domainPart email ≠ ""
  local_nonempty : (domainPart email).length + 1 < email.length

variable {text : TextFunctions} {email : String} {R : Rules} {root : Uuid}
  {good : List Uuid → Prop} {entries : List OrganizationEmailAllowlist} {rules : List Uuid}
  {a : Admission} {fuel : ℕ}

theorem getEmailDomain_eq (h : Normalised text email) :
    getEmailDomain text email = .ok (domainPart email) := by
  have hdomain : (domainPart email).length ≠ 0 := fun hzero =>
    h.domain_nonempty (String.length_eq_zero_iff.mp hzero)
  have hlocal := h.local_nonempty
  rw [getEmailDomain, if_neg (by omega), h.domain_trimmed, h.domain_lowercase]

/-! ## What each service admits -/

/-- The entries and the organizations that a service lists, as far as their paths are active. -/
structure Listed (R : Rules) (email : String) (root : Uuid)
    (entries : List OrganizationEmailAllowlist) (rules : List Uuid) : Prop where
  entry_iff : ∀ e path, ActivePath R.organizations e.organizationId path →
    (e ∈ entries ↔ R.Entry email root e)
  rule_iff : ∀ r path, ActivePath R.organizations r path → (r ∈ rules ↔ R.Matches email root r)
  listed : ∀ e ∈ entries, e.organizationId ∈ rules
  within : ∀ r ∈ rules, R.Within root r

/-- **What is admitted for an email.** -/
structure Admission.For (a : Admission) (R : Rules) (email : String) (root : Uuid)
    (good : List Uuid → Prop) : Prop where
  organizations : ∀ id, id ∈ a.organizationIds ↔ R.Joins email root good id
  entries : ∀ id, id ∈ a.consumedAllowlistIds ↔ R.Consumes email root good id
  nodup : a.organizationIds.Nodup

/-- **The loop over the rules listed** admits what the rules say, if its rounds do. -/
theorem exists_for (hR : R.organizations = T.rows) (h : Listed R email root entries rules)
    {step : Admission → Uuid → Option Admission}
    (hstep : ∀ o ∈ T, o.rootOrganizationId = root → ∀ a₀, ∃ a₁, step a₀ o.id = some a₁
      ∧ Admits T entries good [o.id] a₀ a₁) :
    ∃ a, rules.foldlM step {} = some a ∧ a.For R email root good := by
  have hrounds (r : Uuid) (hr : r ∈ rules) (a₀ : Admission) :
      ∃ a₁, step a₀ r = some a₁ ∧ Admits T entries good [r] a₀ a₁ := by
    obtain ⟨o, ho, rfl, hroot⟩ := h.within r hr
    exact hstep o (show o ∈ T.rows from hR ▸ ho) hroot a₀
  obtain ⟨a, hfold, hadmits⟩ := exists_admits hrounds {}
  refine ⟨a, hfold, fun id => ?_, fun id => ?_, hadmits.nodup List.nodup_nil⟩
  · rw [hadmits.organizations, Rules.Joins, hR, or_iff_right List.not_mem_nil]
    refine exists_congr fun r => ⟨?_, ?_⟩
    · rintro ⟨hr, path, hpath, hgood⟩
      exact ⟨(h.rule_iff r path (hR ▸ hpath)).mp hr, path, hpath, hgood⟩
    · rintro ⟨hr, path, hpath, hgood⟩
      exact ⟨(h.rule_iff r path (hR ▸ hpath)).mpr hr, path, hpath, hgood⟩
  · rw [hadmits.entries, Rules.Consumes, hR, or_iff_right List.not_mem_nil]
    refine exists_congr fun e => ⟨?_, ?_⟩
    · rintro ⟨he, hid, -, path, hpath, hgood⟩
      exact ⟨(h.entry_iff e path (hR ▸ hpath)).mp he, hid, path, hpath, hgood⟩
    · rintro ⟨he, hid, path, hpath, hgood⟩
      have hlisted := (h.entry_iff e path (hR ▸ hpath)).mpr he
      exact ⟨hlisted, hid, h.listed e hlisted, path, hpath, hgood⟩

section Services

variable {db : Registry} (hdb : db.organizations = T.rows) {rule : OrganizationEmailDomain}
  (hrule : rule ∈ db.emailDomains) (hdomain : rule.domain = domainPart email)
include hdb

theorem tree_eq (root : Uuid) : db.tree root = (T.ofRoot root).rows :=
  congrArg (List.filter fun q : Organization => q.rootOrganizationId = root) hdb

theorem organization?_any_iff {p : Organization → Bool} {id : Uuid} :
    (db.organization? id).any p ↔ ∃ o ∈ db.organizations, o.id = id ∧ p o := by
  rw [Option.any_eq_true]
  constructor
  · rintro ⟨o, ho, hp⟩
    exact ⟨o, List.mem_of_find?_eq_some ho, by simpa using List.find?_some ho, hp⟩
  · rintro ⟨o, ho, rfl, hp⟩
    refine ⟨o, ?_, hp⟩
    rw [Database.organization?, hdb]
    exact Hierarchy.find?_eq T.valid.1 (hdb ▸ ho)

theorem mem_allowlisted {e : OrganizationEmailAllowlist} :
    e ∈ db.allowlisted email root ↔ db.rules.Entry email root e := by
  simp only [Registry.allowlisted, List.mem_filter, Bool.and_eq_true, decide_eq_true_eq,
    Option.isNone_iff_eq_none, organization?_any_iff hdb, and_assoc]
  rfl

/-- The entries of a verification: those of active organizations. -/
theorem mem_allowlisted_active {e : OrganizationEmailAllowlist} {path : List Uuid}
    (hpath : ActivePath db.organizations e.organizationId path) :
    e ∈ (db.allowlisted email root).filter (fun e =>
        (db.organization? e.organizationId).any (·.status = .active))
      ↔ db.rules.Entry email root e := by
  rw [List.mem_filter, mem_allowlisted hdb, organization?_any_iff hdb]
  refine and_iff_left ?_
  obtain ⟨t, rfl⟩ := hpath.1.exists_cons
  obtain ⟨o, ho, hid, hactive⟩ := hpath.2 _ (List.mem_cons_self ..)
  exact ⟨o, ho, hid, decide_eq_true hactive⟩

omit hdb

include hrule hdomain in
theorem emailDomain?_eq : db.emailDomain? (domainPart email) = some rule := by
  rw [← hdomain]
  exact db.emailDomains.valid.2.find?_eq hrule

/-- The organizations listed: those of the entries, and the one of the domain. -/
def matchedIds (entries : List OrganizationEmailAllowlist) (rule : OrganizationEmailDomain) :
    List Uuid :=
  if rule.autoJoin then
    Closure.add ((entries.map (·.organizationId)).foldl Closure.add []) rule.organizationId
  else (entries.map (·.organizationId)).foldl Closure.add []

theorem mem_matchedIds {id : Uuid} : id ∈ matchedIds entries rule ↔
    (∃ e ∈ entries, e.organizationId = id)
      ∨ rule.autoJoin = true ∧ rule.organizationId = id := by
  rw [matchedIds]
  by_cases hjoin : rule.autoJoin = true
  · simp [hjoin, Closure.mem_foldl_add, eq_comm]
  · simp [hjoin, Closure.mem_foldl_add]

variable (hwithin : db.rules.Within root rule.organizationId)
include hrule hdomain hwithin

/-- **What is listed**: entries for the email, all of them whose path is active, and the rule of the
domain. -/
theorem listed_of (hentries : ∀ e ∈ entries, db.rules.Entry email root e)
    (hactive : ∀ e path, ActivePath db.organizations e.organizationId path →
      db.rules.Entry email root e → e ∈ entries) :
    Listed db.rules email root entries (matchedIds entries rule) where
  entry_iff e path hpath := ⟨hentries e, hactive e path hpath⟩
  rule_iff r path hpath := by
    rw [mem_matchedIds, Rules.Matches]
    refine or_congr ?_ ?_
    · constructor
      · rintro ⟨e, he, hid⟩
        exact ⟨e, hentries e he, hid⟩
      · rintro ⟨e, he, rfl⟩
        exact ⟨e, hactive e path hpath he, rfl⟩
    · constructor
      · rintro ⟨hjoin, hid⟩
        exact ⟨rule, hrule, hdomain, hjoin, hid⟩
      · rintro ⟨d, hd, hdomain', hjoin, hid⟩
        obtain rfl := db.emailDomains.valid.2.eq hd hrule (hdomain'.trans hdomain.symm)
        exact ⟨hjoin, hid⟩
  listed e he := mem_matchedIds.mpr (.inl ⟨e, he, rfl⟩)
  within r hr := by
    rcases mem_matchedIds.mp hr with ⟨e, he, rfl⟩ | ⟨-, rfl⟩
    · exact (hentries e he).2.2.2
    · exact hwithin

variable (hT : Grounded (parentOf T.rows)) (hfuel : T.rows.length ≤ fuel)
  (hemail : Normalised text email)
include hdb hT hfuel hemail

/-- **What a request admits.** -/
theorem membershipsToApprove_for {organization : Organization}
    (hroot : organization.rootOrganizationId = root) :
    ∃ a, membershipsToApprove text fuel db email organization = some a
      ∧ a.For db.rules email root (organization.id ∈ ·) := by
  have hlisted := listed_of hrule hdomain hwithin
    (fun e he => (mem_allowlisted hdb).mp he) fun e _ _ he => (mem_allowlisted hdb).mpr he
  obtain ⟨a, ha, hfor⟩ := exists_for (T := T) hdb hlisted fun o ho hoRoot a₀ =>
    admits_requestRule hT hfuel ho hoRoot organization.id a₀
  refine ⟨a, ?_, hfor⟩
  rw [membershipsToApprove, hemail.lowercase, hemail.domain_lowercase,
    emailDomain?_eq hrule hdomain, hroot, tree_eq hdb root, ← ha, matchedIds]
  simp only [Option.filter_some]
  by_cases hjoin : rule.autoJoin = true <;> simp [hjoin]

/-- **What a verification admits.** -/
theorem organizationsToJoin_for :
    ∃ a, organizationsToJoin text fuel db email rule root = some a
      ∧ a.For db.rules email root fun _ => True := by
  have hlisted := listed_of hrule hdomain hwithin
    (fun e he => (mem_allowlisted hdb).mp (List.mem_of_mem_filter he)) fun e _ hpath he =>
      (mem_allowlisted_active hdb hpath).mpr he
  obtain ⟨a, ha, hfor⟩ := exists_for (T := T) hdb hlisted fun o ho hoRoot a₀ =>
    admits_verifyRule hT hfuel ho hoRoot a₀
  refine ⟨a, ?_, hfor⟩
  rw [organizationsToJoin, hemail.trimmed, hemail.lowercase, tree_eq hdb root]
  exact ha

end Services

/-! ## What a session sees -/

section Visible

variable {db : Registry} (hdb : db.organizations = T.rows) {o : Organization}
  (ho : o ∈ db.organizations) (hroot : o.rootOrganizationId = root)

theorem tree_visibleTo : (db.visibleTo root).tree root = db.tree root :=
  List.filter_filter.trans (List.filter_congr fun _ _ => Bool.and_self _)

/-- A membership that is not there is not seen either. -/
theorem membership?_visibleTo {id : Uuid} (h : db.membership? userId id = none) :
    (db.visibleTo root).membership? userId id = none := by
  refine Option.eq_none_iff_forall_ne_some.mpr fun m hm => ?_
  obtain ⟨hmem, hkey⟩ := membership?_eq_some.mp hm
  rw [membership?_eq_some.mpr ⟨List.mem_of_mem_filter hmem, hkey⟩] at h
  cases h

include hroot in
/-- The rule of a domain that the university holds. -/
theorem mem_emailDomains_visibleTo {rule : OrganizationEmailDomain} (hrule : rule ∈ db.emailDomains)
    (ho : o ∈ db.organizations) (hid : o.id = rule.organizationId) :
    rule ∈ (db.visibleTo root).emailDomains := by
  refine List.mem_filter.mpr ⟨hrule, List.any_eq_true.mpr ⟨o, ?_, decide_eq_true hid⟩⟩
  exact List.mem_filter.mpr ⟨ho, decide_eq_true hroot⟩

include hdb

include ho hroot in
theorem organization?_visibleTo : (db.visibleTo root).organization? o.id = some o := by
  have hvisible : (db.visibleTo root).organizations = (T.ofRoot root).rows :=
    organizations_visibleTo hdb root
  rw [Database.organization?, hvisible]
  exact Hierarchy.find?_eq (T.ofRoot root).valid.1 (Hierarchy.mem_ofRoot.mpr ⟨hdb ▸ ho, hroot⟩)

include ho in
/-- An organization of another university is not seen. -/
theorem organization?_visibleTo_of_ne (hne : o.rootOrganizationId ≠ root) :
    (db.visibleTo root).organization? o.id = none := by
  refine Option.eq_none_iff_forall_ne_some.mpr fun q hq => hne ?_
  obtain ⟨hmem, hqroot⟩ := List.mem_filter.mp (List.mem_of_find?_eq_some hq)
  have hid : q.id = o.id := by simpa using List.find?_some hq
  obtain rfl := T.valid.1.eq (hdb ▸ hmem) (hdb ▸ ho) hid
  simpa using hqroot

/-- All entries for an email in the university are seen. -/
theorem allowlisted_visibleTo (email : String) :
    (db.visibleTo root).allowlisted email root = db.allowlisted email root := by
  have hvisible : (db.visibleTo root).organizations = (T.ofRoot root).rows :=
    organizations_visibleTo hdb root
  refine List.filter_filter.trans (List.filter_congr fun e _ => ?_)
  rw [Bool.eq_iff_iff]
  simp only [Bool.and_eq_true, organization?_any_iff hvisible,
    organization?_any_iff hdb, List.any_eq_true, and_assoc]
  refine and_congr_right fun _ => and_congr_right fun _ => ?_
  constructor
  · rintro ⟨⟨q, hq, h⟩, -⟩
    exact ⟨q, List.mem_of_mem_filter hq, h⟩
  · rintro ⟨q, hq, hid, hqroot⟩
    have hq' : q ∈ (db.visibleTo root).organizations := List.mem_filter.mpr ⟨hq, hqroot⟩
    exact ⟨⟨q, hq', hid, hqroot⟩, q, hq', decide_eq_true hid⟩

end Visible

/-! ## The agreement -/

/-- **The memberships in the organizations joined are created or found**, the entries whose path was
used are marked, and the memberships and entries are as they were otherwise. -/
structure Joined (R : Rules) (email : String) (root : Uuid) (good : List Uuid → Prop) (userId : Uuid)
    (x : Supply) (db db' : Registry) : Prop where
  memberships : ∃ new : List Uuid, new.Nodup
    ∧ (∀ id, id ∈ new ↔ R.Joins email root good id ∧ db.membership? userId id = none)
    ∧ db'.memberships.rows = db.memberships.rows ++ new.map (joined x.ids userId)
  found : ∀ id, R.Joins email root good id →
    ∃ m ∈ db'.memberships, m.userId = userId ∧ m.organizationId = id
  allowlist : ∃ consumed : List Uuid, (∀ id, id ∈ consumed ↔ R.Consumes email root good id)
    ∧ db'.allowlist.rows = db.allowlist.rows.map fun e =>
      if e.id ∈ consumed then { e with usedAt := some x.now } else e

/-- What both transactions write for what is admitted. -/
theorem exists_joined (db : Registry) (hR : db.rules = R)
    (ha : a.For R email root good) (huser : (db.user? userId).any (·.platformRole = .user))
    {x : Supply} (hfresh : Fresh db.toDatabase x.ids) :
    ∃ memberships allowlist, db.join x.ids userId a x.now = some { db with memberships, allowlist }
      ∧ Joined R email root good userId x db { db with memberships, allowlist } := by
  have horganizations : ∀ id ∈ a.organizationIds, (db.organization? id).isSome := by
    intro id hid
    obtain ⟨r, -, path, hpath, -, hmem⟩ := (ha.organizations id).mp hid
    obtain ⟨o, ho, rfl, -⟩ := hpath.2 id hmem
    rw [← hR] at ho
    exact List.find?_isSome.mpr ⟨o, ho, by simp⟩
  obtain ⟨memberships, allowlist, hjoin, hrows, hentries⟩ :=
    exists_join x.now huser hfresh horganizations ha.nodup
  refine ⟨memberships, allowlist, hjoin,
    ⟨_, ha.nodup.filter _, fun id => ?_, hrows⟩, fun id hid => ?_, _, ha.entries, ?_⟩
  · rw [← ha.organizations id]
    exact mem_unjoined
  · cases hrow : db.membership? userId id with
    | some m =>
      obtain ⟨hm, hkey⟩ := membership?_eq_some.mp hrow
      exact ⟨m, show m ∈ memberships.rows from hrows ▸ List.mem_append_left _ hm, hkey⟩
    | none =>
      have hnew := mem_unjoined.mpr ⟨(ha.organizations id).mpr hid, hrow⟩
      exact ⟨joined x.ids userId id, show _ ∈ memberships.rows from
        hrows ▸ List.mem_append_right _ (List.mem_map_of_mem hnew), rfl, rfl⟩
  · rw [hentries]
    refine List.map_congr_left fun e he => ?_
    -- an entry that is consumed is unused
    by_cases hmem : e.id ∈ a.consumedAllowlistIds
    · obtain ⟨e', hentry, hid, -⟩ := (ha.entries e.id).mp hmem
      have he' : e' ∈ db.allowlist := by
        rw [← hR] at hentry
        exact hentry.1
      obtain rfl := db.allowlist.valid.1.eq he' he hid
      rw [if_pos ⟨hmem, hentry.2.2.1⟩, if_pos hmem]
    · rw [if_neg fun h => hmem h.1, if_neg hmem]

/-- **The link in an email is good**: its user is not verified yet, and its token is neither used nor
expired. -/
structure Verifiable (hashToken : String → String) (db : Registry) (token : String) (user : User)
    (now : Timestamp) : Prop where
  exists_user : db.user? user.id = some user
  regular : user.platformRole = .user
  unverified : user.emailVerifiedAt = none
  token : ∃ t ∈ db.verificationTokens, t.tokenHash = hashToken token ∧ t.userId = user.id
    ∧ t.usedAt = none ∧ t.createdAt ≤ now ∧ now < t.expiresAt

/-- The user may ask for memberships. -/
structure MayRequest (db : Registry) (user : User) : Prop where
  exists_user : db.user? user.id = some user
  active : user.status = .active
  regular : user.platformRole = .user
  verified : user.emailVerifiedAt.isSome

theorem MayRequest.isNone_eq {db : Registry} {user : User} (h : MayRequest db user) :
    user.emailVerifiedAt.isNone = false := by
  rw [← Option.not_isSome, h.verified]
  rfl

/-- A token that is claimed in time. -/
theorem exists_claimToken {db : Registry} {t : EmailVerificationToken}
    (ht : t ∈ db.verificationTokens) {now : Timestamp} (hcreated : t.createdAt ≤ now) :
    ∃ verificationTokens, db.claimToken t.id now = some { db with verificationTokens } := by
  have hvalid := db.verificationTokens.valid
  have hrows : EmailVerificationToken.Constraints (db.verificationTokens.rows.map fun t' =>
      if decide (t'.id = t.id) && t'.usedAt.isNone && decide (now < t'.expiresAt) then
        { t' with usedAt := some now } else t') := by
    refine ⟨hvalid.1.map fun t => by split <;> rfl, hvalid.2.1.map fun t => by split <;> rfl,
      hvalid.2.2.update fun t' ht' hmatch => ⟨(hvalid.2.2 t' ht').1, ?_⟩⟩
    simp only [Bool.and_eq_true, decide_eq_true_eq] at hmatch
    obtain rfl := hvalid.1.eq ht' ht hmatch.1.1
    rintro u ⟨⟩
    exact ⟨hcreated, hmatch.2.le⟩
  obtain ⟨verificationTokens, hupdate⟩ :=
    Option.isSome_iff_exists.mp (Table.replace_isSome.mpr hrows)
  exact ⟨verificationTokens, congrArg (Option.map _) hupdate⟩

section Agreement

variable {db : Registry} {user : User} {x : Supply} {rule : OrganizationEmailDomain}
  {holder : Organization}
  (hT : Grounded (parentOf T.rows)) (hdb : db.organizations = T.rows)
  (hfuel : T.rows.length ≤ fuel) (hemail : Normalised text user.email)
  (hrule : rule ∈ db.emailDomains) (hdomain : rule.domain = domainPart user.email)
  (hholder : holder ∈ db.organizations) (hheld : holder.id = rule.organizationId)
  (hroot : holder.rootOrganizationId = root) (hfresh : Fresh db.toDatabase x.ids)
include hT hdb hfuel hemail hrule hdomain hholder hheld hroot hfresh

/-- **A verification** joins all of `J`. -/
theorem verifyEmail_joined {hashToken : String → String} {token : String}
    (hactive : holder.status = .active) (hlink : Verifiable hashToken db token user x.now) :
    ∃ db', verifyEmail text hashToken fuel db token x = some (.ok db')
      ∧ Joined db.rules user.email root (fun _ => True) user.id x db db' := by
  obtain ⟨t, ht, hhash, huser, hunused, hcreated, hexpires⟩ := hlink.token
  obtain ⟨verificationTokens, hclaim⟩ := exists_claimToken ht hcreated
  have hfind : db.verificationTokens.find? (·.tokenHash = hashToken token) = some t := by
    rw [← hhash]
    exact db.verificationTokens.valid.2.1.find?_eq ht
  have horganization : db.organization? rule.organizationId = some holder := by
    rw [← hheld, Database.organization?, hdb]
    exact Hierarchy.find?_eq T.valid.1 (hdb ▸ hholder)
  obtain ⟨a, ha, hfor⟩ := organizationsToJoin_for
    (show ({ db with verificationTokens } : Registry).organizations = T.rows from hdb) hrule
    hdomain ⟨holder, hholder, hheld, hroot⟩ hT hfuel hemail
  have hregular : (db.user? user.id).any (·.platformRole = .user) := by
    simp [hlink.exists_user, hlink.regular]
  obtain ⟨memberships, allowlist, hjoin, hjoined⟩ :=
    exists_joined { db with verificationTokens } rfl hfor hregular hfresh
  refine ⟨Registry.verified { db with memberships, allowlist, verificationTokens } user.id x.now, ?_,
    ⟨hjoined.memberships, hjoined.found, hjoined.allowlist⟩⟩
  rw [verifyEmail, hfind]
  simp only [Option.bind_some, huser, hlink.exists_user, Option.map_some, hlink.unverified,
    Option.isSome_none, Bool.false_eq_true, if_false, hunused, false_or, not_le.mpr hexpires,
    getEmailDomain_eq hemail, emailDomain?_eq hrule hdomain, horganization, Option.filter_some,
    hactive, decide_true, if_true, hclaim, hroot, ha, hjoin, Option.elim_some]

/-- **A request in a session of the university** joins what is on the paths through the
organization, if there is one, and is left pending otherwise. -/
theorem requestMembership_joined {o : Organization} (huser : MayRequest db user)
    (ho : o ∈ db.organizations) (hactive : o.status = .active) (hoRoot : o.rootOrganizationId = root)
    (hnone : db.membership? user.id o.id = none) :
    ∃ db', requestMembership text fuel db ⟨user.id, some root⟩ o.id x = some (.ok db')
      ∧ (db.rules.Joins user.email root (fun _ => True) o.id →
          Joined db.rules user.email root (o.id ∈ ·) user.id x db db')
      ∧ (¬ db.rules.Joins user.email root (fun _ => True) o.id →
          db'.memberships.rows = db.memberships.rows ++
              [{ id := x.ids o.id, userId := user.id, organizationId := o.id, status := .pending }]
            ∧ db'.allowlist = db.allowlist) := by
  have horganization : db.organization? o.id = some o := by
    rw [Database.organization?, hdb]
    exact Hierarchy.find?_eq T.valid.1 (hdb ▸ ho)
  obtain ⟨a, ha, hfor⟩ := membershipsToApprove_for hdb hrule hdomain ⟨holder, hholder, hheld, hroot⟩
    hT hfuel hemail hoRoot
  have hseen : membershipsToApprove text fuel (db.visibleTo root) user.email o = some a := by
    rw [← ha, membershipsToApprove, membershipsToApprove, hoRoot, tree_visibleTo,
      allowlisted_visibleTo hdb, hemail.domain_lowercase, emailDomain?_eq hrule hdomain,
      emailDomain?_eq (mem_emailDomains_visibleTo hroot hrule hholder hheld) hdomain]
  have hregular : (db.user? user.id).any (·.platformRole = .user) := by
    simp [huser.exists_user, huser.regular]
  -- the organization is among those to approve exactly if it is on a path that counts
  have happrove : o.id ∈ a.organizationIds ↔ db.rules.Joins user.email root (fun _ => True) o.id := by
    simp only [hfor.organizations, Rules.Joins, and_self, true_and]
  have hself : (db.visibleTo root).user? user.id = some user := huser.exists_user
  rw [requestMembership]
  simp only [requestIn, hself, huser.active, huser.regular, decide_true, Bool.and_self,
    Option.filter_some, if_true, huser.isNone_eq, Bool.false_eq_true, if_false,
    organization?_visibleTo hdb ho hoRoot, hactive, membership?_visibleTo hnone, hseen,
    Option.map_some]
  by_cases hjoin : o.id ∈ a.organizationIds
  · obtain ⟨memberships, allowlist, hwrite, hjoined⟩ := exists_joined db rfl hfor hregular hfresh
    refine ⟨{ db with memberships, allowlist }, ?_, fun _ => hjoined, fun hnot =>
      absurd (happrove.mp hjoin) hnot⟩
    rw [if_pos hjoin, hwrite]
    rfl
  · obtain ⟨memberships, hcreate, hrows⟩ := exists_createMembership
      (m := { id := x.ids o.id, userId := user.id, organizationId := o.id })
      (by rw [horganization]; rfl) hregular (fun m hm => hfresh.2 m hm o.id) hnone rfl
    refine ⟨{ db with memberships }, ?_, fun hnot => absurd (happrove.mpr hnot) hjoin, fun _ =>
      ⟨hrows, rfl⟩⟩
    rw [if_neg hjoin, hcreate]
    rfl

end Agreement

/-- **A request in any other session is refused**: none of the university's rows are shown. -/
theorem requestMembership_refused {db : Registry} (hdb : db.organizations = T.rows) {user : User}
    (huser : MayRequest db user) {o : Organization} (ho : o ∈ db.organizations) {x : Supply}
    {other : Option Uuid} (hother : other ≠ some o.rootOrganizationId) :
    ∃ e, requestMembership text fuel db ⟨user.id, other⟩ o.id x = some (.error e) := by
  cases other with
  | none => exact ⟨.notRegularUser, rfl⟩
  | some root =>
    have hself : (db.visibleTo root).user? user.id = some user := huser.exists_user
    refine ⟨.organizationNotFound, ?_⟩
    rw [requestMembership]
    simp only [requestIn, hself, huser.active, huser.regular, decide_true, Bool.and_self,
      Option.filter_some, if_true, huser.isNone_eq, Bool.false_eq_true, if_false,
      organization?_visibleTo_of_ne hdb ho fun h => hother (congrArg some h.symm), Option.filter_none]

/-- **A request is approved where the verification would have joined.**  In any forest of
organizations with any statuses, for any rules and memberships, `J` is the union of the active paths
from the organizations that an unused entry for the email or the rule of its domain matches: the
verification joins `J`, and a request for an active organization without a membership is approved at
once if and only if the organization is in `J`, and then joins exactly the organizations on the
paths through it.  Both mark exactly the entries whose path they used, and change no membership.  The
request is one in a session of the university; in any other session it is refused. -/
theorem auto_approval_agrees {s : Hierarchy.State} (hs : Hierarchy.machine.Reachable Machine.free s)
    (hR : R.organizations = s.committed.rows) (hfuel : R.organizations.length ≤ fuel)
    (hemail : Normalised text email) {rule : OrganizationEmailDomain} (hrule : rule ∈ R.emailDomains)
    (hdomain : rule.domain = domainPart email) {holder : Organization}
    (hholder : holder ∈ R.organizations) (hheld : holder.id = rule.organizationId)
    (hroot : holder.rootOrganizationId = root) (hactive : holder.status = .active) :
    (∀ (db : Registry) (user : User) (x : Supply) (hashToken : String → String) (token : String),
        db.rules = R → user.email = email → Fresh db.toDatabase x.ids →
        Verifiable hashToken db token user x.now →
        ∃ db', verifyEmail text hashToken fuel db token x = some (.ok db')
          ∧ Joined R email root (fun _ => True) user.id x db db')
      ∧ ∀ (db : Registry) (user : User) (x : Supply), db.rules = R → user.email = email →
        Fresh db.toDatabase x.ids → MayRequest db user →
        ∀ o ∈ R.organizations, o.status = .active → o.rootOrganizationId = root →
        db.membership? user.id o.id = none →
        (∀ other, other ≠ some root →
          ∃ e, requestMembership text fuel db ⟨user.id, other⟩ o.id x = some (.error e))
        ∧ ∃ db', requestMembership text fuel db ⟨user.id, some root⟩ o.id x = some (.ok db')
          ∧ ((∃ m ∈ db'.memberships, m.userId = user.id ∧ m.organizationId = o.id
              ∧ m.status = .approved) ↔ R.Joins email root (fun _ => True) o.id)
          ∧ (R.Joins email root (fun _ => True) o.id →
              Joined R email root (o.id ∈ ·) user.id x db db')
          ∧ (¬ R.Joins email root (fun _ => True) o.id →
              db'.memberships.rows = db.memberships.rows ++
                [{ id := x.ids o.id, userId := user.id, organizationId := o.id, status := .pending }]
              ∧ db'.allowlist = db.allowlist) := by
  have hT := (Hierarchy.acyclic_of_reachable hs).1
  have hlength : s.committed.rows.length ≤ fuel := hR ▸ hfuel
  constructor
  · rintro db user x hashToken token rfl rfl hfresh hlink
    exact verifyEmail_joined hT hR hlength hemail hrule hdomain hholder hheld hroot hfresh hactive
      hlink
  · rintro db user x rfl rfl hfresh huser o ho hoActive hoRoot hnone
    obtain ⟨db', hrequest, hjoined, hpending⟩ := requestMembership_joined hT hR hlength hemail hrule
      hdomain hholder hheld hroot hfresh huser ho hoActive hoRoot hnone
    refine ⟨fun other hother => requestMembership_refused hR huser ho (hoRoot ▸ hother), db',
      hrequest, ⟨?_, fun hjoins => ?_⟩, hjoined, hpending⟩
    · rintro ⟨m, hm, hu, hid, happroved⟩
      by_contra hnot
      rw [← Table.mem_rows, (hpending hnot).1, List.mem_append, List.mem_singleton] at hm
      rcases hm with hm | rfl
      · rw [membership?_eq_some.mpr ⟨hm, hu, hid⟩] at hnone
        cases hnone
      · cases happroved
    · obtain ⟨new, -, hnew, hrows⟩ := (hjoined hjoins).memberships
      have hmem : o.id ∈ new := by
        refine (hnew o.id).mpr ⟨?_, hnone⟩
        simpa only [Rules.Joins, and_self, true_and] using hjoins
      exact ⟨joined x.ids user.id o.id, show _ ∈ db'.memberships.rows from
        hrows ▸ List.mem_append_right _ (List.mem_map_of_mem hmem), rfl, rfl, rfl⟩

/-- Trimming, and lowercasing of texts whose letters are ASCII. -/
def latin : TextFunctions := ⟨trim, fun s => String.ofList (s.toList.map Char.toLower)⟩

/-- An entry for the faculty, and a domain of the university. -/
def allowances : Rules where
  organizations := Hierarchy.university
  emailDomains := ⟨[{ id := 40, organizationId := 1, domain := "x" }], by decide⟩
  allowlist := ⟨[{ id := 41, organizationId := 2, email := "a@x" }], by decide⟩

/-- User 7 has the email `a@x`, and a link to verify it. -/
def applicant (emailVerifiedAt : Option Timestamp) : Registry where
  users := [{ id := 7, email := "a@x", emailVerifiedAt }]
  organizations := allowances.organizations
  memberships := ⟨[], OrganizationMembership.constraints_nil⟩
  audits := ⟨[], OrganizationMembershipAudit.constraints_nil⟩
  emailDomains := allowances.emailDomains
  allowlist := allowances.allowlist
  verificationTokens :=
    ⟨[{ id := 50, userId := 7, tokenHash := "t", expiresAt := 20, createdAt := 1 }], by decide⟩

/-- The link makes user 7 a member of the faculty; had it been followed before the entry was there,
the request for the faculty is approved at once. -/
theorem auto_approval_agrees_of_entry :
    (∃ db', verifyEmail latin id 2 (applicant none) "t" ⟨10, (· + 100)⟩ = some (.ok db')
      ∧ ∃ m ∈ db'.memberships, m.userId = 7 ∧ m.organizationId = 2)
    ∧ ∃ db', requestMembership latin 2 (applicant (some 3)) ⟨7, some 1⟩ 2 ⟨10, (· + 100)⟩
        = some (.ok db')
      ∧ ∃ m ∈ db'.memberships, m.userId = 7 ∧ m.organizationId = 2 ∧ m.status = .approved := by
  obtain ⟨s, hs, hrows⟩ := Hierarchy.reachable_university
  have hemail : Normalised latin "a@x" :=
    ⟨by decide, by decide, by decide, by decide, by decide, by decide⟩
  have hholder : (⟨1, none, 1, .active⟩ : Organization) ∈ allowances.organizations :=
    List.mem_cons_self ..
  obtain ⟨hverify, hrequest⟩ := auto_approval_agrees (R := allowances) hs hrows.symm (le_refl 2)
    hemail (List.mem_singleton_self _) rfl hholder rfl rfl rfl
  have hlink : Verifiable id (applicant none) "t" { id := 7, email := "a@x" } 10 :=
    ⟨by decide, rfl, rfl, _, List.mem_singleton_self _, rfl, rfl, rfl, by decide, by decide⟩
  have hmay : MayRequest (applicant (some 3)) { id := 7, email := "a@x", emailVerifiedAt := some 3 } :=
    ⟨by decide, rfl, rfl, rfl⟩
  have hfresh (at? : Option Timestamp) : Fresh (applicant at?).toDatabase (· + 100) :=
    ⟨fun a b h => Nat.add_right_cancel h, fun m hm => absurd hm List.not_mem_nil⟩
  obtain ⟨db₁, hverified, hjoined⟩ := hverify (applicant none) _ ⟨10, (· + 100)⟩ id "t" rfl rfl
    (hfresh _) hlink
  obtain ⟨-, db₂, hrun, happroved, -⟩ := hrequest (applicant (some 3)) _ ⟨10, (· + 100)⟩ rfl rfl
    (hfresh _) hmay ⟨2, some 1, 1, .active⟩ (by decide) rfl rfl (by decide)
  have hentry : allowances.Entry "a@x" 1 { id := 41, organizationId := 2, email := "a@x" } :=
    ⟨List.mem_singleton_self _, rfl, rfl, ⟨2, some 1, 1, .active⟩, by decide, rfl, rfl⟩
  have hpath : ActivePath allowances.organizations 2 [2, 1] :=
    ⟨.up (b := 1) (by decide) (.top (by decide)), by decide⟩
  have hjoins : allowances.Joins "a@x" 1 (fun _ => True) 2 :=
    ⟨2, .inl ⟨_, hentry, rfl⟩, [2, 1], hpath, trivial, by decide⟩
  exact ⟨⟨db₁, hverified, hjoined.found 2 hjoins⟩, db₂, hrun, happroved.mpr hjoins⟩

end ResourceHive.Organizations
