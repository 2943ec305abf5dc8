import ResourceHive.Machinery.Closure
import ResourceHive.Machinery.Machine
import ResourceHive.Organizations.Membership
import ResourceHive.Points.Service

/-!
# Organizations/SemesterPoints — `OrganizationsService.allocateSemesterPoints`

A call pays each approved member of the organizations below its targets once, in one Serializable
transaction: it first looks for an entry of the semester whose source is one of the *targets*, and
then writes entries whose source is the organization of the *membership*.  The two agree on a user
only when that organization was itself selected, so a target whose members all sit further down can
be allocated to again.
-/

namespace ResourceHive.Organizations

/-- What the calls read and nothing changes. -/
structure Directory where
  users : List Uuid
  organizations : List Organization
  memberships : List OrganizationMembership

namespace Directory

/-- What the foreign keys of an entry that is not for a booking refer to. -/
def refs (D : Directory) : References where
  users := D.users
  organizations := D.organizations.map fun o => (o.id, o.rootOrganizationId)
  bookings := []

/-- `allOrgs`: the organizations of a university with their parents. -/
def hierarchy (D : Directory) (organizationId : Uuid) : List (Uuid × Option Uuid) :=
  (D.organizations.filter (·.rootOrganizationId = organizationId)).map fun o => (o.id, o.parentId)

/-- **What a request of a university sees**, by `organizations_tenant` and `memberships_tenant`. -/
def visibleTo (D : Directory) (rootOrganizationId : Uuid) : Directory where
  users := D.users
  organizations := D.organizations.filter (·.rootOrganizationId = rootOrganizationId)
  memberships := D.memberships.filter fun m => D.organizations.any fun o =>
    decide (o.rootOrganizationId = rootOrganizationId) && decide (o.id = m.organizationId)

theorem hierarchy_visibleTo (D : Directory) (organizationId : Uuid) :
    (D.visibleTo organizationId).hierarchy organizationId = D.hierarchy organizationId := by
  simp [hierarchy, visibleTo, List.filter_filter]

/-- The approved memberships in some organizations. -/
def approvedIn (D : Directory) (organizationIds : List Uuid) : List OrganizationMembership :=
  D.memberships.filter fun m =>
    decide (m.organizationId ∈ organizationIds) && decide (m.status = .approved)

end Directory

/-! ## The call -/

/-- The loop over the targets: each target, and then everything below what has been collected. -/
def descendants (allOrgs : List (Uuid × Option Uuid)) (targetOrganizationIds : List Uuid) :
    List Uuid :=
  targetOrganizationIds.foldl
    (fun descendants targetId => Closure.closure allOrgs (Closure.add descendants targetId)) []

/-- The rows of users not seen before, each user's first one. -/
def uniqueMemberships (seenUsers : List Uuid) :
    List OrganizationMembership → List OrganizationMembership
  | [] => []
  | m :: memberships =>
    if m.userId ∈ seenUsers then uniqueMemberships seenUsers memberships
    else m :: uniqueMemberships (m.userId :: seenUsers) memberships

/-- `existingAllocation`: an entry of the semester attributed to one of the selected targets, among
those that `points_tenant` shows. -/
def existingAllocation (L : Ledger) (organizationId : Uuid) (targetOrganizationIds : List Uuid)
    (semesterName : String) : Option PointTransaction :=
  L.transactions.find? fun e =>
    decide (e.rootOrganizationId = some organizationId)
      && e.sourceOrganizationId.any (· ∈ targetOrganizationIds)
      && decide (e.transactionType = .semesterAllocation)
      && decide (e.description = some semesterName)

/-- `createMany`: one statement, so all of the entries or none. -/
def createMany (refs : References) (data : List PointTransaction) (L : Ledger) : Option Ledger :=
  data.foldlM (fun L e => L.insert refs e) L

/-- The exception of the call, a `ConflictException`. -/
inductive SemesterPointsError
  | alreadyAllocated (semesterName : String)
  deriving DecidableEq, Repr

namespace SemesterPointsError

def status : SemesterPointsError → ℕ
  | alreadyAllocated _ => 409

def message : SemesterPointsError → String
  | alreadyAllocated semesterName =>
    "Semester points for '" ++ semesterName
      ++ "' have already been allocated to one or more selected organizations."

end SemesterPointsError

/-- The arguments of a call that differ from call to call, and what the database chooses: the order
of the membership rows, the identifiers of new entries by user, and the time. -/
structure Allocation where
  targetOrganizationIds : List Uuid
  amount : ℤ
  memberships : List OrganizationMembership
  entryId : Uuid → Uuid
  now : Timestamp

/-- The entry written for a membership. -/
def Allocation.entry (call : Allocation) (organizationId : Uuid) (semesterName : String)
    (membership : OrganizationMembership) : PointTransaction where
  id := call.entryId membership.userId
  userId := membership.userId
  rootOrganizationId := some organizationId
  amount := call.amount
  transactionType := .semesterAllocation
  sourceOrganizationId := some membership.organizationId
  description := some semesterName
  createdAt := call.now

/-- **`allocateSemesterPoints`**, given the membership rows it read: the count, with the ledger it
committed, or what it threw after rolling back. -/
def allocateSemesterPoints (D : Directory) (organizationId : Uuid) (semesterName : String)
    (call : Allocation) (L : Ledger) : Except (Thrown SemesterPointsError) (ℕ × Ledger) :=
  if call.targetOrganizationIds = [] then .ok (0, L)
  else
    let unique := uniqueMemberships [] call.memberships
    if unique = [] then .ok (0, L)
    else if (existingAllocation L organizationId call.targetOrganizationIds semesterName).isSome then
      .error (.http (.alreadyAllocated semesterName))
    else
      match createMany D.refs (unique.map (call.entry organizationId semesterName)) L with
      | none => .error (.prisma .other)
      | some L' => .ok (unique.length, L')

/-! ## Runs of calls -/

/-- Whether an entry is one of a semester at a university. -/
def ofSemester (organizationId : Uuid) (semesterName : String) (e : PointTransaction) : Bool :=
  decide (e.rootOrganizationId = some organizationId)
    && decide (e.transactionType = .semesterAllocation)
    && decide (e.description = some semesterName)

/-- A call, or another insert into the ledger. -/
inductive SemesterLabel
  | allocate (call : Allocation)
  | insert (refs : References) (e : PointTransaction)

/-- The membership rows of a call are those its query selects, of what the request sees, in any
order. -/
def Allocation.Selects (call : Allocation) (D : Directory) (organizationId : Uuid) : Prop :=
  call.memberships.Perm ((D.visibleTo organizationId).approvedIn
    (descendants ((D.visibleTo organizationId).hierarchy organizationId) call.targetOrganizationIds))

instance (call : Allocation) (D : Directory) (organizationId : Uuid) :
    Decidable (call.Selects D organizationId) :=
  inferInstanceAs (Decidable (List.Perm _ _))

/-- One step.  Serializable transactions that commit behave as if run one after the other, and a
call that fails leaves the ledger as it was; other inserts are those that pay nobody for this
semester at this university. -/
def semesterStep (D : Directory) (organizationId : Uuid) (semesterName : String) (L : Ledger) :
    SemesterLabel → Option Ledger
  | .allocate call =>
    if call.Selects D organizationId then
      match allocateSemesterPoints D organizationId semesterName call L with
      | .ok (_, L') => some L'
      | .error _ => some L
    else none
  | .insert refs e =>
    if ofSemester organizationId semesterName e then none else L.insert refs e

/-- **Each user is paid at most once** for the semester. -/
def PaidOnce (organizationId : Uuid) (semesterName : String) (L : Ledger) : Prop :=
  Table.UniqueWhere (ofSemester organizationId semesterName) (·.userId) L.transactions.rows

instance (organizationId : Uuid) (semesterName : String) :
    DecidablePred (PaidOnce organizationId semesterName) := fun _ =>
  inferInstanceAs (Decidable (Table.UniqueWhere _ _ _))

/-- The machine of all calls with one root and one semester name, from any ledger in which nobody
has been paid twice. -/
def semesterMachine (D : Directory) (organizationId : Uuid) (semesterName : String) :
    Machine Ledger SemesterLabel where
  init := PaidOnce organizationId semesterName
  step := semesterStep D organizationId semesterName

/-! ## Whom a call reaches -/

/-- The user is an approved member of an organization at or below one of the targets. -/
def Reaches (D : Directory) (organizationId : Uuid) (targetOrganizationIds : List Uuid)
    (userId : Uuid) : Prop :=
  ∃ m ∈ D.memberships, m.userId = userId ∧ m.status = .approved ∧
    ∃ t ∈ targetOrganizationIds,
      Relation.ReflTransGen (Closure.Below (D.hierarchy organizationId)) t m.organizationId

/-- The user has an entry of the semester. -/
def Paid (organizationId : Uuid) (semesterName : String) (L : Ledger) (userId : Uuid) : Prop :=
  ∃ e ∈ L.transactions, ofSemester organizationId semesterName e ∧ e.userId = userId

/-- Some entry of the semester is attributed to one of the targets. -/
def Allocated (organizationId : Uuid) (targetOrganizationIds : List Uuid) (semesterName : String)
    (L : Ledger) : Prop :=
  ∃ e ∈ L.transactions, ofSemester organizationId semesterName e
    ∧ ∃ t ∈ targetOrganizationIds, e.sourceOrganizationId = some t

section Reach

variable {D : Directory} {organizationId : Uuid} {semesterName : String} {targets : List Uuid}

/-- The loop collects what lies at or below the targets. -/
theorem mem_descendants {allOrgs : List (Uuid × Option Uuid)} {x : Uuid} :
    x ∈ descendants allOrgs targets ↔
      ∃ t ∈ targets, Relation.ReflTransGen (Closure.Below allOrgs) t x := by
  -- over the targets left; what the earlier ones contributed contains all that lies below it
  have key (S : List Uuid)
      (hS : ∀ s ∈ S, Relation.ReflTransGen (Closure.Below allOrgs) s x → x ∈ S) :
      x ∈ targets.foldl (fun S t => Closure.closure allOrgs (Closure.add S t)) S ↔
        x ∈ S ∨ ∃ t ∈ targets, Relation.ReflTransGen (Closure.Below allOrgs) t x := by
    induction targets generalizing S with
    | nil => simp
    | cons t targets ih =>
      rw [List.foldl_cons, ih _ fun s hs hpath => Closure.mem_closure_of_below hs hpath,
        Closure.mem_closure_add hS, List.exists_mem_cons_iff, or_assoc]
  simpa [descendants] using key [] (by simp)

/-- A user is reached exactly if one of the rows the call selects is theirs. -/
theorem reaches_iff {u : Uuid} : Reaches D organizationId targets u ↔
    ∃ m ∈ D.approvedIn (descendants (D.hierarchy organizationId) targets), m.userId = u := by
  simp only [Reaches, Directory.approvedIn, List.mem_filter, Bool.and_eq_true, decide_eq_true_eq,
    mem_descendants]
  constructor
  · rintro ⟨m, hm, rfl, happ, hbelow⟩
    exact ⟨m, ⟨hm, hbelow, happ⟩, rfl⟩
  · rintro ⟨m, ⟨hm, hbelow, happ⟩, rfl⟩
    exact ⟨m, hm, rfl, happ, hbelow⟩

theorem existingAllocation_isSome {L : Ledger} :
    (existingAllocation L organizationId targets semesterName).isSome = true ↔
      Allocated organizationId targets semesterName L := by
  simp only [existingAllocation, Table.find?, List.find?_isSome, Bool.and_eq_true,
    decide_eq_true_eq, Option.any_eq_true, Allocated, ofSemester]
  constructor
  · rintro ⟨e, he, ⟨⟨hroot, t, hsrc, ht⟩, htype⟩, hdesc⟩
    exact ⟨e, he, ⟨⟨hroot, htype⟩, hdesc⟩, t, ht, hsrc⟩
  · rintro ⟨e, he, ⟨⟨hroot, htype⟩, hdesc⟩, t, ht, hsrc⟩
    exact ⟨e, he, ⟨⟨hroot, t, hsrc, ht⟩, htype⟩, hdesc⟩

end Reach

/-! ## What a call writes -/

section Write

variable {organizationId : Uuid} {semesterName : String}

theorem mem_of_mem_uniqueMemberships {seenUsers : List Uuid} {ms : List OrganizationMembership}
    {m : OrganizationMembership} (h : m ∈ uniqueMemberships seenUsers ms) :
    m ∈ ms ∧ m.userId ∉ seenUsers := by
  induction ms generalizing seenUsers with
  | nil => cases h
  | cons a ms ih =>
    unfold uniqueMemberships at h
    split at h
    · exact ⟨List.mem_cons_of_mem a (ih h).1, (ih h).2⟩
    · rename_i hnew
      rcases List.mem_cons.mp h with rfl | h
      · exact ⟨List.mem_cons_self, hnew⟩
      · obtain ⟨hm, hseen⟩ := ih h
        exact ⟨List.mem_cons_of_mem a hm, fun hu => hseen (List.mem_cons_of_mem _ hu)⟩

/-- Each user is listed once… -/
theorem nodup_uniqueMemberships (seenUsers : List Uuid) (ms : List OrganizationMembership) :
    ((uniqueMemberships seenUsers ms).map (·.userId)).Nodup := by
  induction ms generalizing seenUsers with
  | nil => exact List.nodup_nil
  | cons m ms ih =>
    unfold uniqueMemberships
    split
    · exact ih seenUsers
    · rw [List.map_cons, List.nodup_cons]
      refine ⟨fun h => ?_, ih _⟩
      obtain ⟨m', hm', hu⟩ := List.mem_map.mp h
      exact (mem_of_mem_uniqueMemberships hm').2 (hu ▸ List.mem_cons_self)

/-- …and nobody is left out. -/
theorem exists_mem_uniqueMemberships {seenUsers : List Uuid} {ms : List OrganizationMembership}
    {m : OrganizationMembership} (hm : m ∈ ms) (hnew : m.userId ∉ seenUsers) :
    ∃ m' ∈ uniqueMemberships seenUsers ms, m'.userId = m.userId := by
  induction ms generalizing seenUsers with
  | nil => cases hm
  | cons a ms ih =>
    unfold uniqueMemberships
    by_cases hsame : a.userId = m.userId
    · rw [if_neg (hsame ▸ hnew)]
      exact ⟨a, List.mem_cons_self, hsame⟩
    · obtain rfl | hm := List.mem_cons.mp hm
      · exact absurd rfl hsame
      · split
        · exact ih hm hnew
        · have hnew' : m.userId ∉ a.userId :: seenUsers := fun h =>
            (List.mem_cons.mp h).elim (fun h => hsame h.symm) hnew
          obtain ⟨m', hm', hu⟩ := ih hm hnew'
          exact ⟨m', List.mem_cons_of_mem a hm', hu⟩

theorem createMany_eq_some {refs : References} {data : List PointTransaction} {L L' : Ledger}
    (h : createMany refs data L = some L') :
    L'.transactions.rows = L.transactions.rows ++ data := by
  induction data generalizing L with
  | nil =>
    obtain rfl : L = L' := Option.some.inj h
    exact (List.append_nil _).symm
  | cons e data ih =>
    simp only [createMany, List.foldlM_cons, Option.bind_eq_bind, Option.bind_eq_some_iff] at h
    obtain ⟨M, hM, hrest⟩ := h
    have hrow := Table.insert_eq_some.mp (Ledger.insert_eq_some hM).2.1
    rw [ih hrest, hrow, List.append_assoc, List.singleton_append]

/-- **What a call that returns did**: nothing, having nobody to pay; or it found no earlier entry
for its targets, and appended one entry for each user it selected. -/
theorem allocateSemesterPoints_eq_ok {D : Directory} {call : Allocation} {L L' : Ledger} {n : ℕ}
    (h : allocateSemesterPoints D organizationId semesterName call L = .ok (n, L')) :
    L' = L ∧ n = 0 ∧ (call.targetOrganizationIds = [] ∨ uniqueMemberships [] call.memberships = [])
      ∨ ¬ Allocated organizationId call.targetOrganizationIds semesterName L ∧
        n = (uniqueMemberships [] call.memberships).length ∧
        L'.transactions.rows = L.transactions.rows ++
          (uniqueMemberships [] call.memberships).map (call.entry organizationId semesterName) := by
  unfold allocateSemesterPoints at h
  simp only at h
  split at h
  · rename_i htargets
    cases h
    exact .inl ⟨rfl, rfl, .inl htargets⟩
  · split at h
    · rename_i hunique
      cases h
      exact .inl ⟨rfl, rfl, .inr hunique⟩
    · split at h
      · cases h
      · rename_i hnone
        split at h
        · cases h
        · rename_i M hM
          cases h
          refine .inr ⟨fun hall => hnone (existingAllocation_isSome.mpr hall), rfl, ?_⟩
          exact createMany_eq_some hM

end Write

/-! ## Paying at most once -/

section PaidOnce

variable {D : Directory} {organizationId : Uuid} {semesterName : String} {call : Allocation}
  {L L' : Ledger}

/-- **The condition** on a call: if it reaches a user who has been paid for the semester, then some
entry of the semester is attributed to one of its targets. -/
def Covered (D : Directory) (organizationId : Uuid) (semesterName : String) (L : Ledger)
    (call : Allocation) : Prop :=
  (∃ u, Reaches (D.visibleTo organizationId) organizationId call.targetOrganizationIds u
      ∧ Paid organizationId semesterName L u)
    → Allocated organizationId call.targetOrganizationIds semesterName L

/-- The condition on a step; other inserts meet it. -/
def CoveredStep (D : Directory) (organizationId : Uuid) (semesterName : String) (L : Ledger) :
    SemesterLabel → Prop
  | .allocate call => Covered D organizationId semesterName L call
  | .insert _ _ => True

/-- A user the rows of a call contain is one the call reaches. -/
theorem reaches_of_mem (hsel : call.Selects D organizationId) {m : OrganizationMembership}
    (hm : m ∈ call.memberships) :
    Reaches (D.visibleTo organizationId) organizationId call.targetOrganizationIds m.userId :=
  reaches_iff.mpr ⟨m, hsel.mem_iff.mp hm, rfl⟩

/-- A user the call reaches is one of those it is about to pay. -/
theorem exists_unique_of_reaches (hsel : call.Selects D organizationId) {u : Uuid}
    (hu : Reaches (D.visibleTo organizationId) organizationId call.targetOrganizationIds u) :
    ∃ m ∈ uniqueMemberships [] call.memberships, m.userId = u := by
  obtain ⟨m, hm, rfl⟩ := reaches_iff.mp hu
  exact exists_mem_uniqueMemberships (hsel.mem_iff.mpr hm) List.not_mem_nil

/-- **The call's step**: a call that meets the condition keeps the users paid once. -/
theorem PaidOnce.allocate (hL : PaidOnce organizationId semesterName L)
    (hsel : call.Selects D organizationId) (hcov : Covered D organizationId semesterName L call)
    {n : ℕ} (h : allocateSemesterPoints D organizationId semesterName call L = .ok (n, L')) :
    PaidOnce organizationId semesterName L' := by
  rcases allocateSemesterPoints_eq_ok h with ⟨rfl, -⟩ | ⟨hnone, -, hrows⟩
  · exact hL
  · rw [PaidOnce, hrows, Table.uniqueWhere_append]
    refine ⟨hL, ?_, fun x hx hp y hy _ hxy => ?_⟩
    · have hnd := nodup_uniqueMemberships [] call.memberships
      rw [Table.UniqueWhere, Table.Unique]
      refine List.Nodup.sublist (List.filter_sublist.map _) ?_
      simpa [List.map_map, Function.comp_def, Allocation.entry] using hnd
    · obtain ⟨m, hm, rfl⟩ := List.mem_map.mp hy
      have hreach := reaches_of_mem hsel (mem_of_mem_uniqueMemberships hm).1
      exact hnone (hcov ⟨m.userId, hreach, x, hx, hp, hxy⟩)

/-- **The step lemma.** -/
theorem PaidOnce.step {l : SemesterLabel} (hL : PaidOnce organizationId semesterName L)
    (hcov : CoveredStep D organizationId semesterName L l)
    (hstep : semesterStep D organizationId semesterName L l = some L') :
    PaidOnce organizationId semesterName L' := by
  cases l with
  | allocate call =>
    simp only [semesterStep, Option.ite_none_right_eq_some] at hstep
    obtain ⟨hsel, hstep⟩ := hstep
    cases hcall : allocateSemesterPoints D organizationId semesterName call L with
    | error e =>
      rw [hcall] at hstep
      exact Option.some.inj hstep ▸ hL
    | ok r =>
      rw [hcall] at hstep
      obtain rfl : r.2 = L' := Option.some.inj hstep
      exact hL.allocate hsel hcov hcall
  | insert refs e =>
    simp only [semesterStep, Option.ite_none_left_eq_some] at hstep
    obtain ⟨hother, hins⟩ := hstep
    have hrows := Table.insert_eq_some.mp (Ledger.insert_eq_some hins).2.1
    rw [PaidOnce, hrows, Table.uniqueWhere_append]
    refine ⟨hL, ?_, fun x _ _ y hy hp => ?_⟩
    · simp [Table.UniqueWhere, Table.Unique, hother]
    · obtain rfl := List.mem_singleton.mp hy
      exact absurd hp hother

/-- A call that reaches someone has targets, and somebody to pay. -/
theorem ne_nil_of_reaches (hsel : call.Selects D organizationId) {u : Uuid}
    (hu : Reaches (D.visibleTo organizationId) organizationId call.targetOrganizationIds u) :
    call.targetOrganizationIds ≠ [] ∧ uniqueMemberships [] call.memberships ≠ [] := by
  obtain ⟨m, hm, -⟩ := exists_unique_of_reaches hsel hu
  obtain ⟨-, -, -, -, t, ht, -⟩ := hu
  exact ⟨List.ne_nil_of_mem ht, List.ne_nil_of_mem hm⟩

/-- **The condition is exact**: of the calls that return, those that meet it are the ones that leave
every user paid at most once. -/
theorem paidOnce_iff_covered (hL : PaidOnce organizationId semesterName L)
    (hsel : call.Selects D organizationId) {n : ℕ}
    (h : allocateSemesterPoints D organizationId semesterName call L = .ok (n, L')) :
    PaidOnce organizationId semesterName L' ↔ Covered D organizationId semesterName L call := by
  refine ⟨fun hL' ⟨u, hu, x, hx, hp, hxu⟩ => ?_, fun hcov => hL.allocate hsel hcov h⟩
  obtain ⟨htargets, hunique⟩ := ne_nil_of_reaches hsel hu
  rcases allocateSemesterPoints_eq_ok h with ⟨-, -, hnil | hnil⟩ | ⟨-, -, hrows⟩
  · exact absurd hnil htargets
  · exact absurd hnil hunique
  · -- the entry the user had, and the one the call has written
    obtain ⟨m, hm, hmu⟩ := exists_unique_of_reaches hsel hu
    rw [PaidOnce, hrows, Table.uniqueWhere_append] at hL'
    have hnew := hL'.2.2 x hx hp (call.entry organizationId semesterName m)
      (List.mem_map_of_mem hm) (by simp [ofSemester, Allocation.entry])
    exact absurd (hxu.trans hmu.symm) hnew

/-- A call that reaches a paid user and meets the condition fails with the conflict. -/
theorem allocateSemesterPoints_conflict (hsel : call.Selects D organizationId)
    (hcov : Covered D organizationId semesterName L call) {u : Uuid}
    (hu : Reaches (D.visibleTo organizationId) organizationId call.targetOrganizationIds u)
    (hpaid : Paid organizationId semesterName L u) :
    allocateSemesterPoints D organizationId semesterName call L =
      .error (.http (.alreadyAllocated semesterName)) := by
  obtain ⟨htargets, hunique⟩ := ne_nil_of_reaches hsel hu
  have hfound := existingAllocation_isSome.mpr (hcov ⟨u, hu, hpaid⟩)
  simp only [allocateSemesterPoints, if_neg htargets, if_neg hunique, if_pos hfound]

/-- **Each user is paid at most once**, in every state reached by calls that meet the condition and
any other inserts; and such a call that reaches a paid user is a conflict that leaves the ledger
unchanged. -/
theorem semesterPoints_paid_once
    (h : (semesterMachine D organizationId semesterName).Reachable
      (CoveredStep D organizationId semesterName) L) :
    PaidOnce organizationId semesterName L ∧
      ∀ (call : Allocation) (u : Uuid), call.Selects D organizationId →
        Covered D organizationId semesterName L call →
        Reaches (D.visibleTo organizationId) organizationId call.targetOrganizationIds u →
        Paid organizationId semesterName L u →
        allocateSemesterPoints D organizationId semesterName call L =
            .error (.http (.alreadyAllocated semesterName))
          ∧ semesterStep D organizationId semesterName L (.allocate call) = some L := by
  refine ⟨h.invariant id fun hL hcov hstep => hL.step hcov hstep, ?_⟩
  intro call u hsel hcov hu hpaid
  have hconflict := allocateSemesterPoints_conflict hsel hcov hu hpaid
  exact ⟨hconflict, by simp only [semesterStep, if_pos hsel, hconflict]⟩

/-- The condition by evaluation. -/
theorem covered_iff : Covered D organizationId semesterName L call ↔
    ((D.visibleTo organizationId).approvedIn (descendants
        ((D.visibleTo organizationId).hierarchy organizationId) call.targetOrganizationIds)).all
        (fun m => L.transactions.rows.all fun e =>
          !(ofSemester organizationId semesterName e && decide (e.userId = m.userId)))
      || (existingAllocation L organizationId call.targetOrganizationIds semesterName).isSome := by
  simp only [Bool.or_eq_true, existingAllocation_isSome, List.all_eq_true, Bool.not_eq_true',
    Bool.and_eq_false_iff, decide_eq_false_iff_not]
  constructor
  · intro hcov
    by_cases hall : Allocated organizationId call.targetOrganizationIds semesterName L
    · exact .inr hall
    · refine .inl fun m hm e he => ?_
      by_contra hpaid
      simp only [not_or, Bool.not_eq_false, not_not] at hpaid
      exact hall (hcov ⟨m.userId, reaches_iff.mpr ⟨m, hm, rfl⟩, e, he, hpaid⟩)
  · rintro (hnone | hall) ⟨u, hu, e, he, hp, heu⟩
    · obtain ⟨m, hm, rfl⟩ := reaches_iff.mp hu
      simpa [hp, heu] using hnone m hm e he
    · exact hall

instance : Decidable (Covered D organizationId semesterName L call) :=
  decidable_of_iff _ covered_iff.symm

instance (l : SemesterLabel) : Decidable (CoveredStep D organizationId semesterName L l) :=
  match l with
  | .allocate call => inferInstanceAs (Decidable (Covered D organizationId semesterName L call))
  | .insert _ _ => inferInstanceAs (Decidable True)

end PaidOnce

/-! ## Two universities -/

/-- A faculty with a department below it, and a second faculty. -/
def faculties : Directory where
  users := [10, 11, 12]
  organizations := [⟨1, none, 1, .active⟩, ⟨2, some 1, 1, .active⟩, ⟨3, some 2, 1, .active⟩,
    ⟨4, some 1, 1, .active⟩]
  memberships := [{ id := 20, userId := 10, organizationId := 2, status := .approved },
    { id := 21, userId := 11, organizationId := 3, status := .approved },
    { id := 22, userId := 11, organizationId := 2, status := .pending },
    { id := 23, userId := 12, organizationId := 4, status := .approved }]

/-- A university with one department, and a user who belongs to the department only. -/
def department : Directory where
  users := [10]
  organizations := [⟨1, none, 1, .active⟩, ⟨2, some 1, 1, .active⟩]
  memberships := [{ id := 20, userId := 10, organizationId := 2, status := .approved }]

/-- The call to pay everyone below `targets`, with the rows as the table lists them. -/
def allocation (D : Directory) (organizationId : Uuid) (targets : List Uuid)
    (entryId : Uuid → Uuid) : Allocation where
  targetOrganizationIds := targets
  amount := 500
  memberships := (D.visibleTo organizationId).approvedIn
    (descendants ((D.visibleTo organizationId).hierarchy organizationId) targets)
  entryId := entryId
  now := 0

/-- The first faculty is paid; its department, selected alone, is a conflict; the second faculty is
paid; and both together are a conflict. -/
theorem semesterPoints_paid_once_of_faculties : ∃ L,
    (L.transactions.rows.map fun e => (e.userId, e.sourceOrganizationId))
        = [(10, some 2), (11, some 3), (12, some 4)]
      ∧ PaidOnce 1 "Semester-1/2026" L
      ∧ semesterStep faculties 1 "Semester-1/2026" L
          (.allocate (allocation faculties 1 [2, 4] (· + 200))) = some L := by
  let call := allocation faculties 1 [2, 4] (· + 200)
  obtain ⟨L, hL, hp⟩ := Machine.exists_reachable_guarded
    (M := semesterMachine faculties 1 "Semester-1/2026")
    (p := fun L l => decide (CoveredStep faculties 1 "Semester-1/2026" L l))
    (q := fun L => decide ((L.transactions.rows.map fun e => (e.userId, e.sourceOrganizationId))
        = [(10, some 2), (11, some 3), (12, some 4)])
      && decide (CoveredStep faculties 1 "Semester-1/2026" L (.allocate call))
      && decide (L.transactions.rows.any fun e =>
          ofSemester 1 "Semester-1/2026" e && decide (e.userId = 10)))
    (s := Ledger.empty)
    [.allocate (allocation faculties 1 [2] (· + 100)),
      .allocate (allocation faculties 1 [3] (· + 100)),
      .allocate (allocation faculties 1 [4] (· + 100))]
    (show PaidOnce 1 _ Ledger.empty by decide) (by decide)
  simp only [Bool.and_eq_true, decide_eq_true_eq, List.any_eq_true] at hL hp
  obtain ⟨⟨hrows, hcov⟩, e, he, hpaid⟩ := hp
  obtain ⟨honce, hconflict⟩ := semesterPoints_paid_once hL
  have hreach : Reaches (faculties.visibleTo 1) 1 [2, 4] 10 :=
    ⟨_, List.mem_cons_self, rfl, rfl, 2, by decide, .refl⟩
  exact ⟨L, hrows, honce, (hconflict call 10 (List.Perm.refl _) hcov hreach ⟨e, he, hpaid⟩).2⟩

/-- **A user is paid twice**: the university is selected in both calls, and the entry of the first
is attributed to the department. -/
theorem semesterPoints_paid_twice : ∃ L,
    (semesterMachine department 1 "Semester-1/2026").Reachable Machine.free L ∧
      ¬ PaidOnce 1 "Semester-1/2026" L := by
  obtain ⟨L, hL, hp⟩ := Machine.exists_reachable
    (M := semesterMachine department 1 "Semester-1/2026")
    (p := fun L => !decide (PaidOnce 1 "Semester-1/2026" L)) (s := Ledger.empty)
    [.allocate (allocation department 1 [1] fun _ => 100),
      .allocate (allocation department 1 [1] fun _ => 101)]
    (show PaidOnce 1 _ Ledger.empty by decide) (by decide)
  exact ⟨L, hL, by simpa using hp⟩

end ResourceHive.Organizations
