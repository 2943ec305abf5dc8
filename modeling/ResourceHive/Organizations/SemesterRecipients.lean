import ResourceHive.Organizations.SemesterPoints
import ResourceHive.Points.Balance

/-!
# Organizations/SemesterRecipients — whom `allocateSemesterPoints` pays, and how much

The loop over the targets collects what lies at or below them, in whatever order the organizations
are listed, and the members are paid once each.  So a call without an earlier allocation in its way
pays exactly the users it reaches (`semester_recipients`).  The one thing that can still stop it is
the balance of a user it reaches, if it has no room for the amount (`room_of_ok`).
-/

namespace ResourceHive

namespace Ledger

variable {refs : References} {e : PointTransaction} {L : Ledger} {root : Uuid}

/-- **An allocation is taken** if the balance has room for it. -/
theorem exists_allocation (htype : e.transactionType = .semesterAllocation) (hchecks : e.Checks)
    (hadm : refs.Admits e) (hid : ∀ x ∈ L.transactions, x.id ≠ e.id)
    (hroot : e.rootOrganizationId = some root) (hbal : refs.AdmitsBalance e.userId root)
    (hfit : L.available e.userId root + e.amount ≤ 2147483647) :
    ∃ L', L.insert refs e = some L' := by
  have hsource := hchecks.2.2
  simp only [PointTransaction.SourceCheck, htype, reduceCtorEq, false_and, or_false, or_true,
    true_and] at hsource
  obtain ⟨T, hT⟩ : ∃ T, L.transactions.insert e = some T := by
    obtain ⟨hunique, hvalid, hjoin, hbooking, hrefund⟩ := L.transactions.valid
    refine Option.isSome_iff_exists.mp (Table.replace_isSome.mpr ⟨hunique.append hid,
      fun x hx => ?_, hjoin.append (by simp [htype]), hbooking.append (by simp [htype]),
      hrefund.append (by simp [htype])⟩)
    rcases List.mem_append.mp hx with hx | hx
    · exact hvalid x hx
    · exact List.mem_singleton.mp hx ▸ hchecks
  obtain ⟨B, hB⟩ := exists_credit (T := L.balances) hroot hsource.1 hbal hfit
  exact ⟨⟨T, B⟩, by simp [insert, hadm, hT, hB]⟩

/-- No balance is above the column's range. -/
theorem available_le (L : Ledger) (u r : Uuid) : L.available u r ≤ 2147483647 := by
  rw [available_eq]
  cases h : L.balances.find? (·.of u r) with
  | none => simp
  | some b => exact (L.balances.valid.2 b (Table.mem_of_find? h)).1.2

end Ledger

namespace Organizations

/-! ## One statement for all entries -/

section CreateMany

variable {refs : References} {root : Uuid} {data : List PointTransaction} {L L' : Ledger}

/-- What an entry has to be for `createMany` to take it. -/
structure Payable (refs : References) (root : Uuid) (L : Ledger) (e : PointTransaction) : Prop where
  type : e.transactionType = .semesterAllocation
  checks : e.Checks
  admits : refs.Admits e
  university : e.rootOrganizationId = some root
  balance : refs.AdmitsBalance e.userId root
  fresh : ∀ x ∈ L.transactions, x.id ≠ e.id
  room : L.available e.userId root + e.amount ≤ 2147483647

/-- An entry for another user does not matter. -/
theorem Payable.insert {e x : PointTransaction} (h : Payable refs root L e)
    (hins : L.insert refs x = some L') (hid : x.id ≠ e.id) (huser : x.userId ≠ e.userId) :
    Payable refs root L' e where
  type := h.type
  checks := h.checks
  admits := h.admits
  university := h.university
  balance := h.balance
  fresh y hy := by
    rcases (Ledger.mem_insert hins).mp hy with hy | rfl
    · exact h.fresh y hy
    · exact hid
  room := by
    have hother : x.of e.userId root = false := by simp [PointTransaction.of, huser]
    rw [Ledger.available_insert hins, hother]
    simpa using h.room

/-- **Entries for different users are all taken.** -/
theorem exists_createMany (hdata : ∀ e ∈ data, Payable refs root L e)
    (hids : (data.map (·.id)).Nodup) (husers : (data.map (·.userId)).Nodup) :
    ∃ L', createMany refs data L = some L' := by
  induction data generalizing L with
  | nil => exact ⟨L, rfl⟩
  | cons e data ih =>
    rw [List.map_cons, List.nodup_cons] at hids husers
    have he := hdata e List.mem_cons_self
    obtain ⟨M, hM⟩ := Ledger.exists_allocation he.type he.checks he.admits he.fresh he.university
      he.balance he.room
    have hrest : ∀ x ∈ data, Payable refs root M x := fun x hx =>
      (hdata x (List.mem_cons_of_mem _ hx)).insert hM
        (fun heq => hids.1 (heq ▸ List.mem_map_of_mem hx))
        (fun heq => husers.1 (heq ▸ List.mem_map_of_mem hx))
    obtain ⟨L', hL'⟩ := ih hrest hids.2 husers.2
    exact ⟨L', by simpa [createMany, hM] using hL'⟩

/-- What the entries add to a balance. -/
theorem available_createMany (h : createMany refs data L = some L') (u r : Uuid) :
    L'.available u r = L.available u r + ((data.filter (·.of u r)).map (·.amount)).sum := by
  induction data generalizing L with
  | nil =>
    obtain rfl : L = L' := Option.some.inj h
    simp
  | cons e data ih =>
    simp only [createMany, List.foldlM_cons, Option.bind_eq_bind, Option.bind_eq_some_iff] at h
    obtain ⟨M, hM, hrest⟩ := h
    rw [ih hrest, Ledger.available_insert hM, List.filter_cons]
    split
    · rw [List.map_cons, List.sum_cons, add_assoc]
    · rw [add_zero]

end CreateMany

/-! ## The call -/

/-- The foreign keys of the tables a call reads: `organization_memberships.user_id` and
`organizations_root_fk`. -/
structure Directory.ForeignKeys (D : Directory) : Prop where
  users : ∀ m ∈ D.memberships, m.userId ∈ D.users
  roots : ∀ o ∈ D.organizations, ∃ q ∈ D.organizations, q.id = o.rootOrganizationId

/-- The amount is positive, and with it every balance it is added to is in the range of the
column. -/
structure Allocation.InRange (call : Allocation) (D : Directory) (organizationId : Uuid)
    (L : Ledger) : Prop where
  positive : 0 < call.amount
  room : ∀ u, Reaches D organizationId call.targetOrganizationIds u →
    L.available u organizationId + call.amount ≤ 2147483647

/-- The identifiers of the entries are new, as those of `gen_random_uuid()` are. -/
structure Allocation.Fresh (call : Allocation) (L : Ledger) : Prop where
  injective : Function.Injective call.entryId
  new : ∀ u, ∀ x ∈ L.transactions, x.id ≠ call.entryId u

/-- The ledger has an entry for the user that it did not have. -/
def Pays (L L' : Ledger) (userId : Uuid) : Prop :=
  ∃ e ∈ L'.transactions, e ∉ L.transactions ∧ e.userId = userId

/-- **What a call is for**, of the count and the ledger it returns: `data` is inserted, one entry of
the amount for each user the call reaches and none for anyone else, from an organization where the
user is reached; the count is how many users these are. -/
structure Recipients (D : Directory) (organizationId : Uuid) (semesterName : String)
    (call : Allocation) (L L' : Ledger) (count : ℕ) (data : List PointTransaction) : Prop where
  inserted : L'.transactions.rows = L.transactions.rows ++ data
  entry : ∀ e ∈ data, e.amount = call.amount ∧ e.transactionType = .semesterAllocation
    ∧ e.rootOrganizationId = some organizationId ∧ e.description = some semesterName
  one : ∀ u, Reaches D organizationId call.targetOrganizationIds u →
    (data.filter (·.userId = u)).length = 1
  none : ∀ u, ¬ Reaches D organizationId call.targetOrganizationIds u →
    data.filter (·.userId = u) = []
  source : ∀ e ∈ data, ∃ m ∈ D.memberships, m.userId = e.userId ∧ m.status = .approved
    ∧ e.sourceOrganizationId = some m.organizationId ∧ ∃ t ∈ call.targetOrganizationIds,
      Relation.ReflTransGen (Closure.Below (D.hierarchy organizationId)) t m.organizationId
  pays : ∀ u, Pays L L' u ↔ Reaches D organizationId call.targetOrganizationIds u
  count : ∀ S : Finset Uuid,
    (∀ u, u ∈ S ↔ Reaches D organizationId call.targetOrganizationIds u) → count = S.card

section Call

variable {D D' : Directory} {organizationId : Uuid} {semesterName : String}
  {call call' : Allocation} {L L' : Ledger} {u : Uuid}

/-- A row the call selects is one of an organization of the university at or below a target. -/
theorem exists_organization (htargets : call.targetOrganizationIds
      ⊆ (D.hierarchy organizationId).map Prod.fst) {x : Uuid}
    (hx : x ∈ descendants (D.hierarchy organizationId) call.targetOrganizationIds) :
    ∃ o ∈ D.organizations, o.id = x ∧ o.rootOrganizationId = organizationId := by
  have hlisted : x ∈ (D.hierarchy organizationId).map Prod.fst := by
    obtain ⟨t, ht, hpath⟩ := mem_descendants.mp hx
    rcases hpath.cases_tail with rfl | ⟨a, -, hedge⟩
    · exact htargets ht
    · exact List.mem_map.mpr ⟨_, hedge, rfl⟩
  simpa [Directory.hierarchy, and_comm, and_assoc] using hlisted

/-- **The request sees all that its targets reach**, if they are organizations of the university. -/
theorem reaches_visibleTo
    (htargets : call.targetOrganizationIds ⊆ (D.hierarchy organizationId).map Prod.fst) :
    Reaches (D.visibleTo organizationId) organizationId call.targetOrganizationIds u ↔
      Reaches D organizationId call.targetOrganizationIds u := by
  rw [Reaches, Reaches, Directory.hierarchy_visibleTo]
  constructor
  · rintro ⟨m, hm, h⟩
    exact ⟨m, List.mem_of_mem_filter hm, h⟩
  · rintro ⟨m, hm, hu, happ, hbelow⟩
    obtain ⟨o, ho, hid, hroot⟩ := exists_organization htargets (mem_descendants.mpr hbelow)
    exact ⟨m, List.mem_filter.mpr ⟨hm, List.any_eq_true.mpr ⟨o, ho, by simp [hid, hroot]⟩⟩, hu,
      happ, hbelow⟩

/-- **The entries of a call can be inserted.** -/
theorem payable_entry (hD : D.ForeignKeys) (hsel : call.Selects D organizationId)
    (htargets : call.targetOrganizationIds ⊆ (D.hierarchy organizationId).map Prod.fst)
    (hrange : call.InRange D organizationId L) (hfresh : call.Fresh L)
    {m : OrganizationMembership} (hm : m ∈ call.memberships) :
    Payable D.refs organizationId L (call.entry organizationId semesterName m) := by
  have hreach := (reaches_visibleTo htargets).mp (reaches_of_mem hsel hm)
  have happ := hsel.mem_iff.mp hm
  rw [Directory.hierarchy_visibleTo] at happ
  simp only [Directory.approvedIn, List.mem_filter, Bool.and_eq_true, decide_eq_true_eq] at happ
  obtain ⟨hvisible, hin, -⟩ := happ
  have hmem : m ∈ D.memberships := List.mem_of_mem_filter hvisible
  obtain ⟨o, ho, hid, hroot⟩ := exists_organization htargets hin
  obtain ⟨q, hq, hqid⟩ := hD.roots o ho
  have hamount : call.amount ≤ 2147483647 := by
    have hnonneg := Ledger.available_nonneg L m.userId organizationId
    have hroom := hrange.room m.userId hreach
    omega
  have hpositive := hrange.positive
  have horg : (m.organizationId, organizationId) ∈ D.refs.organizations :=
    List.mem_map.mpr ⟨o, ho, by rw [hid, hroot]⟩
  refine ⟨rfl, ⟨⟨?_, hamount⟩, ?_, .inl ⟨.inr rfl, hpositive, rfl, rfl⟩⟩, ?_, rfl, ?_, ?_, ?_⟩
  · have hentry : (call.entry organizationId semesterName m).amount = call.amount := rfl
    omega
  · exact hpositive.ne'
  · refine ⟨hD.users m hmem, ?_, ?_, by simp [Allocation.entry], by simp [Allocation.entry]⟩
    · rintro x ⟨⟩
      exact List.mem_map.mpr ⟨_, horg, rfl⟩
    · rintro x ⟨⟩ r ⟨⟩
      exact horg
  · exact ⟨hD.users m hmem, List.mem_map.mpr ⟨(q.id, q.rootOrganizationId),
      List.mem_map_of_mem hq, hqid.trans hroot⟩⟩
  · exact fun x hx => hfresh.new m.userId x hx
  · exact hrange.room m.userId hreach

/-- The rows to be paid: one for each user who is reached. -/
theorem mem_map_unique (hsel : call.Selects D organizationId)
    (htargets : call.targetOrganizationIds ⊆ (D.hierarchy organizationId).map Prod.fst) :
    u ∈ (uniqueMemberships [] call.memberships).map (·.userId) ↔
      Reaches D organizationId call.targetOrganizationIds u := by
  rw [List.mem_map, ← reaches_visibleTo htargets]
  constructor
  · rintro ⟨m, hm, rfl⟩
    exact reaches_of_mem hsel (mem_of_mem_uniqueMemberships hm).1
  · exact exists_unique_of_reaches hsel

/-- **A call that has somebody to pay and no earlier allocation in its way** pays them. -/
theorem exists_allocateSemesterPoints (hD : D.ForeignKeys) (hsel : call.Selects D organizationId)
    (htargets : call.targetOrganizationIds ⊆ (D.hierarchy organizationId).map Prod.fst)
    (hrange : call.InRange D organizationId L) (hfresh : call.Fresh L)
    (hfree : ¬ Allocated organizationId call.targetOrganizationIds semesterName L) :
    ∃ L', allocateSemesterPoints D organizationId semesterName call L
        = .ok ((uniqueMemberships [] call.memberships).length, L')
      ∧ L'.transactions.rows = L.transactions.rows ++
        (uniqueMemberships [] call.memberships).map (call.entry organizationId semesterName) := by
  have hnone : (existingAllocation L organizationId call.targetOrganizationIds semesterName).isSome
      = false := Bool.eq_false_iff.mpr fun hsome => hfree (existingAllocation_isSome.mp hsome)
  have hnodup := nodup_uniqueMemberships [] call.memberships
  let data := (uniqueMemberships [] call.memberships).map (call.entry organizationId semesterName)
  have hpayable : ∀ e ∈ data, Payable D.refs organizationId L e := by
    intro e he
    obtain ⟨m, hm, rfl⟩ := List.mem_map.mp he
    exact payable_entry hD hsel htargets hrange hfresh (mem_of_mem_uniqueMemberships hm).1
  have hids : (data.map (·.id)).Nodup := by
    have hids := hnodup.map hfresh.injective
    simpa [data, List.map_map, Function.comp_def, Allocation.entry] using hids
  have husers : (data.map (·.userId)).Nodup := by
    simpa [data, List.map_map, Function.comp_def, Allocation.entry] using hnodup
  obtain ⟨L', hL'⟩ := exists_createMany hpayable hids husers
  unfold allocateSemesterPoints
  simp only [hnone, data, hL']
  by_cases hempty : uniqueMemberships [] call.memberships = []
  · refine ⟨L, ?_, by simp [hempty]⟩
    split <;> simp [hempty]
  · have hsome : call.targetOrganizationIds ≠ [] := by
      obtain ⟨m, hm⟩ := List.exists_mem_of_ne_nil _ hempty
      exact (ne_nil_of_reaches hsel (reaches_of_mem hsel (mem_of_mem_uniqueMemberships hm).1)).1
    exact ⟨L', by simp [hempty, hsome], createMany_eq_some hL'⟩

open scoped Classical in
/-- The entries of a user: one if the call reaches them. -/
theorem length_entries (hsel : call.Selects D organizationId)
    (htargets : call.targetOrganizationIds ⊆ (D.hierarchy organizationId).map Prod.fst) (u : Uuid) :
    (((uniqueMemberships [] call.memberships).map
      (call.entry organizationId semesterName)).filter (·.userId = u)).length =
        if Reaches D organizationId call.targetOrganizationIds u then 1 else 0 := by
  have hcount := (nodup_uniqueMemberships [] call.memberships).count (a := u)
  simp only [mem_map_unique hsel htargets] at hcount
  rw [← hcount, List.count, List.countP_map, List.filter_map, List.length_map,
    ← List.countP_eq_length_filter]
  rfl

/-- An entry of the call is a new one: its identifier is not in the ledger. -/
theorem not_mem_of_new {data : List PointTransaction} {e : PointTransaction}
    (hrows : L'.transactions.rows = L.transactions.rows ++ data) (he : e ∈ data) :
    e ∉ L.transactions := by
  have hunique := L'.transactions.valid.1
  rw [hrows, Table.Unique, List.map_append] at hunique
  exact fun hold => List.disjoint_of_nodup_append hunique (List.mem_map_of_mem hold)
    (List.mem_map_of_mem he)

/-- What the entries of a call are. -/
theorem recipients_of_rows (hsel : call.Selects D organizationId)
    (htargets : call.targetOrganizationIds ⊆ (D.hierarchy organizationId).map Prod.fst)
    (hrows : L'.transactions.rows = L.transactions.rows ++
      (uniqueMemberships [] call.memberships).map (call.entry organizationId semesterName)) :
    Recipients D organizationId semesterName call L L' (uniqueMemberships [] call.memberships).length
      ((uniqueMemberships [] call.memberships).map (call.entry organizationId semesterName)) := by
  have hnodup := nodup_uniqueMemberships [] call.memberships
  refine ⟨hrows, fun e he => ?_, fun u hu => ?_, fun u hu => ?_, fun e he => ?_, fun u => ?_,
    fun S hS => ?_⟩
  · obtain ⟨m, -, rfl⟩ := List.mem_map.mp he
    exact ⟨rfl, rfl, rfl, rfl⟩
  · rw [length_entries hsel htargets, if_pos hu]
  · rw [← List.length_eq_zero_iff, length_entries hsel htargets, if_neg hu]
  · obtain ⟨m, hm, rfl⟩ := List.mem_map.mp he
    have happ := hsel.mem_iff.mp (mem_of_mem_uniqueMemberships hm).1
    rw [Directory.hierarchy_visibleTo] at happ
    simp only [Directory.approvedIn, List.mem_filter, Bool.and_eq_true, decide_eq_true_eq,
      mem_descendants] at happ
    exact ⟨m, List.mem_of_mem_filter happ.1, rfl, happ.2.2, rfl, happ.2.1⟩
  · rw [← mem_map_unique hsel htargets]
    constructor
    · rintro ⟨e, he, hnew, rfl⟩
      rw [← Table.mem_rows, hrows, List.mem_append] at he
      obtain ⟨m, hm, rfl⟩ := List.mem_map.mp (he.resolve_left hnew)
      exact List.mem_map_of_mem hm
    · intro hu
      obtain ⟨m, hm, rfl⟩ := List.mem_map.mp hu
      have he := List.mem_map_of_mem (f := call.entry organizationId semesterName) hm
      refine ⟨call.entry organizationId semesterName m, ?_, not_mem_of_new hrows he, rfl⟩
      rw [← Table.mem_rows, hrows]
      exact List.mem_append_right _ he
  · have hset : S = ((uniqueMemberships [] call.memberships).map (·.userId)).toFinset := by
      ext u
      rw [hS, List.mem_toFinset, mem_map_unique hsel htargets]
    rw [hset, List.toFinset_card_of_nodup hnodup, List.length_map]

/-- What a call that returns did, in either case. -/
theorem rows_of_ok (hsel : call.Selects D organizationId) {n : ℕ}
    (h : allocateSemesterPoints D organizationId semesterName call L = .ok (n, L')) :
    n = (uniqueMemberships [] call.memberships).length ∧
      L'.transactions.rows = L.transactions.rows ++
        (uniqueMemberships [] call.memberships).map (call.entry organizationId semesterName) := by
  rcases allocateSemesterPoints_eq_ok h with ⟨rfl, rfl, hnil⟩ | ⟨-, hn, hrows⟩
  · have hempty : uniqueMemberships [] call.memberships = [] := by
      by_contra hne
      obtain ⟨m, hm⟩ := List.exists_mem_of_ne_nil _ hne
      have htargets := (ne_nil_of_reaches hsel
        (reaches_of_mem hsel (mem_of_mem_uniqueMemberships hm).1)).1
      exact hnil.elim htargets hne
    simp [hempty]
  · exact ⟨hn, hrows⟩

/-- **The order of the lists does not matter** to whom a call reaches. -/
theorem reaches_congr (horganizations : D'.organizations.Perm D.organizations)
    (hmemberships : D'.memberships.Perm D.memberships)
    (htargets : ∀ t, t ∈ call'.targetOrganizationIds ↔ t ∈ call.targetOrganizationIds) :
    Reaches D' organizationId call'.targetOrganizationIds u ↔
      Reaches D organizationId call.targetOrganizationIds u := by
  have hbelow : Closure.Below (D'.hierarchy organizationId) =
      Closure.Below (D.hierarchy organizationId) := by
    funext a b
    exact propext ((horganizations.filter _).map _).mem_iff
  simp only [Reaches, hbelow, htargets, hmemberships.mem_iff]

/-- Nor does it to which targets are organizations of the university. -/
theorem targets_congr (horganizations : D'.organizations.Perm D.organizations)
    (htargets : ∀ t, t ∈ call'.targetOrganizationIds ↔ t ∈ call.targetOrganizationIds)
    (h : call.targetOrganizationIds ⊆ (D.hierarchy organizationId).map Prod.fst) :
    call'.targetOrganizationIds ⊆ (D'.hierarchy organizationId).map Prod.fst := fun t ht =>
  (((horganizations.filter _).map _).map _).mem_iff.mpr (h ((htargets t).mp ht))

/-- **A call pays the users it reaches**: without an earlier allocation for its targets it ends, each
loop of its own accord, and returns having inserted one entry of the amount for each user with an
approved membership at or below a target, and none for anyone else.  A call with the organizations,
the targets and the memberships in another order pays the same users. -/
theorem semester_recipients (hD : D.ForeignKeys) (hsel : call.Selects D organizationId)
    (htargets : call.targetOrganizationIds ⊆ (D.hierarchy organizationId).map Prod.fst)
    (hrange : call.InRange D organizationId L) (hfresh : call.Fresh L)
    (hfree : ¬ Allocated organizationId call.targetOrganizationIds semesterName L) :
    (∀ S, Closure.sweep (D.hierarchy organizationId) (Closure.closure (D.hierarchy organizationId) S)
        = (Closure.closure (D.hierarchy organizationId) S, false))
      ∧ ∃ count L' data,
        allocateSemesterPoints D organizationId semesterName call L = .ok (count, L')
        ∧ Recipients D organizationId semesterName call L L' count data
        ∧ ∀ D' call' count' L'', D'.organizations.Perm D.organizations →
          D'.memberships.Perm D.memberships →
          (∀ t, t ∈ call'.targetOrganizationIds ↔ t ∈ call.targetOrganizationIds) →
          call'.Selects D' organizationId →
          allocateSemesterPoints D' organizationId semesterName call' L = .ok (count', L'') →
          count' = count ∧ ∀ u, Pays L L'' u ↔ Pays L L' u := by
  obtain ⟨L', hL', hrows⟩ := exists_allocateSemesterPoints hD hsel htargets hrange hfresh hfree
  have hrec := recipients_of_rows hsel htargets hrows
  refine ⟨Closure.sweep_closure _, _, L', _, hL', hrec, ?_⟩
  intro D' call' count' L'' horganizations hmemberships hsame hsel' hL''
  obtain ⟨rfl, hrows'⟩ := rows_of_ok hsel' hL''
  have hrec' := recipients_of_rows hsel' (targets_congr horganizations hsame htargets) hrows'
  have hreach {u : Uuid} : Reaches D' organizationId call'.targetOrganizationIds u ↔
      Reaches D organizationId call.targetOrganizationIds u :=
    reaches_congr horganizations hmemberships hsame
  refine ⟨?_, fun u => by rw [hrec'.pays, hrec.pays, hreach]⟩
  have hmem (u : Uuid) : u ∈ ((uniqueMemberships [] call.memberships).map (·.userId)).toFinset ↔
      Reaches D organizationId call.targetOrganizationIds u := by
    rw [List.mem_toFinset, mem_map_unique hsel htargets]
  rw [hrec'.count _ fun u => (hmem u).trans hreach.symm, hrec.count _ hmem]

/-- A call that returns and reaches somebody has inserted their entries. -/
theorem createMany_of_ok (hsel : call.Selects D organizationId)
    (hu : Reaches (D.visibleTo organizationId) organizationId call.targetOrganizationIds u) {n : ℕ}
    (h : allocateSemesterPoints D organizationId semesterName call L = .ok (n, L')) :
    createMany D.refs ((uniqueMemberships [] call.memberships).map
      (call.entry organizationId semesterName)) L = some L' := by
  obtain ⟨htargets, hunique⟩ := ne_nil_of_reaches hsel hu
  simp only [allocateSemesterPoints, if_neg htargets, if_neg hunique] at h
  split at h
  · cases h
  · split at h
    · cases h
    · rename_i hcreate
      cases h
      exact hcreate

/-- **A balance without room for the amount stops the call**: if one that reaches a user returns,
there was room for theirs. -/
theorem room_of_ok (hsel : call.Selects D organizationId)
    (htargets : call.targetOrganizationIds ⊆ (D.hierarchy organizationId).map Prod.fst)
    (hu : Reaches D organizationId call.targetOrganizationIds u) {n : ℕ}
    (h : allocateSemesterPoints D organizationId semesterName call L = .ok (n, L')) :
    L.available u organizationId + call.amount ≤ 2147483647 := by
  have hbalance := available_createMany
    (createMany_of_ok hsel ((reaches_visibleTo htargets).mpr hu) h) u organizationId
  have hof : ((uniqueMemberships [] call.memberships).map
      (call.entry organizationId semesterName)).filter (·.of u organizationId) =
        ((uniqueMemberships [] call.memberships).map
          (call.entry organizationId semesterName)).filter (·.userId = u) := by
    refine List.filter_congr fun e he => ?_
    obtain ⟨m, -, rfl⟩ := List.mem_map.mp he
    simp [PointTransaction.of, Allocation.entry]
  have hone : (((uniqueMemberships [] call.memberships).map
      (call.entry organizationId semesterName)).filter (·.userId = u)).length = 1 := by
    rw [length_entries hsel htargets, if_pos hu]
  obtain ⟨e, he⟩ := List.length_eq_one_iff.mp hone
  have hamount : e.amount = call.amount := by
    have hmem : e ∈ [e] := List.mem_singleton_self e
    rw [← he] at hmem
    obtain ⟨m, -, rfl⟩ := List.mem_map.mp (List.mem_of_mem_filter hmem)
    rfl
  rw [hof, he, List.map_singleton, List.sum_singleton, hamount] at hbalance
  exact hbalance ▸ Ledger.available_le L' u organizationId

end Call

/-! ## A university -/

/-- A department and the faculty above it are both selected; nobody has been paid yet. -/
theorem semester_recipients_of_faculties : ∃ count L' data,
    allocateSemesterPoints faculties 1 "Semester-1/2026" (allocation faculties 1 [3, 2] (· + 100))
        Ledger.empty = .ok (count, L')
      ∧ Recipients faculties 1 "Semester-1/2026" (allocation faculties 1 [3, 2] (· + 100))
        Ledger.empty L' count data := by
  let call := allocation faculties 1 [3, 2] (· + 100)
  have hkeys : faculties.ForeignKeys := ⟨by decide, by decide⟩
  have hsel : call.Selects faculties 1 := List.Perm.refl _
  have hrange : call.InRange faculties 1 Ledger.empty :=
    ⟨by decide, fun _ _ => show (0 : ℤ) + 500 ≤ 2147483647 by decide⟩
  have hfresh : call.Fresh Ledger.empty :=
    ⟨fun _ _ hab => Nat.add_right_cancel hab, fun _ _ hx => by cases hx⟩
  have hfree : ¬ Allocated 1 [3, 2] "Semester-1/2026" Ledger.empty := by
    rintro ⟨e, he, -⟩
    cases he
  obtain ⟨-, count, L', data, hcall, hrec, -⟩ :=
    semester_recipients hkeys hsel (by decide) hrange hfresh hfree
  exact ⟨count, L', data, hcall, hrec⟩

end Organizations

end ResourceHive
