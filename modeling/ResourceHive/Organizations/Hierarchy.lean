import ResourceHive.Machinery.Ancestry
import ResourceHive.Machinery.Closure
import ResourceHive.Machinery.Machine
import ResourceHive.Organizations.Membership

/-!
# Organizations/Hierarchy — `organizations`, and the trigger against cycles

A row has the shape of a root or of a child; a child's parent is there and in the same university;
and a statement that would put an organization below itself is rejected by
`reject_organization_hierarchy_cycle`, which looks at what lies below the row.  These local rules
keep the table a forest over any statements (`forest_of_reachable`): each organization has a chain
of parents, in one university, up to its root.
-/

namespace ResourceHive.Organizations

open Ancestry

/-! ## The table -/

namespace Organization

/-- `organizations_root_shape_check`. -/
def RootShape (o : Organization) : Prop :=
  (o.parentId = none ∧ o.rootOrganizationId = o.id)
    ∨ (o.parentId ≠ none ∧ o.rootOrganizationId ≠ o.id)

instance : DecidablePred RootShape := fun _ => inferInstanceAs (Decidable (_ ∨ _))

/-- `organizations_parent_same_root_fk`. -/
def ParentSameRoot (rows : List Organization) : Prop :=
  ∀ o ∈ rows, ∀ p ∈ o.parentId, ∃ q ∈ rows, q.id = p ∧ q.rootOrganizationId = o.rootOrganizationId

instance : DecidablePred ParentSameRoot := fun rows =>
  inferInstanceAs (Decidable (∀ o ∈ rows, ∀ p ∈ o.parentId, _))

/-- What each statement is checked for: the primary key, the CHECK and the foreign key of the
parent. -/
def Constraints (rows : List Organization) : Prop :=
  Table.Unique id rows ∧ Table.Check RootShape rows ∧ ParentSameRoot rows

instance : DecidablePred Constraints := fun _ => inferInstanceAs (Decidable (_ ∧ _ ∧ _))

/-- `organizations_root_fk`, which is checked when a transaction commits. -/
def RootPresent (rows : List Organization) : Prop :=
  ∀ o ∈ rows, ∃ q ∈ rows, q.id = o.rootOrganizationId

instance : DecidablePred RootPresent := fun rows =>
  inferInstanceAs (Decidable (∀ o ∈ rows, ∃ q ∈ rows, _))

end Organization

/-- The rows of `organizations`. -/
abbrev Hierarchy := Table Organization Organization.Constraints

/-- The parent of an organization; none if there is no such organization. -/
def parentOf (rows : List Organization) (id : Uuid) : Option Uuid :=
  (rows.find? (·.id = id)).bind (·.parentId)

namespace Hierarchy

/-! ## Statements -/

/-- Each organization and its parent, as a table to be swept. -/
def parents (rows : List Organization) : List (Uuid × Option Uuid) :=
  rows.map fun o => (o.id, o.parentId)

/-- `descendants`: the organizations whose parent this is, and what lies below them. -/
def descendants (rows : List Organization) (id : Uuid) : List Uuid :=
  Closure.closure (parents rows) ((rows.filter (·.parentId = some id)).map (·.id))

/-- **`reject_organization_hierarchy_cycle`**, before the row is written: its parent is itself, or
one of its descendants. -/
def createsCycle (rows : List Organization) (new : Organization) : Bool :=
  new.parentId.any fun parentId =>
    decide (parentId = new.id) || decide (parentId ∈ descendants rows new.id)

inductive Statement
  | insert (organization : Organization)
  /-- Of the columns that are given. -/
  | update (id : Uuid) (parentId : Option (Option Uuid)) (rootOrganizationId : Option Uuid)
  | delete (id : Uuid)
  deriving DecidableEq, Repr

/-- The row after an update. -/
def moved (parentId : Option (Option Uuid)) (rootOrganizationId : Option Uuid)
    (o : Organization) : Organization :=
  { o with
    parentId := parentId.getD o.parentId
    rootOrganizationId := rootOrganizationId.getD o.rootOrganizationId }

/-- **One statement** of one row; rejected by the trigger or by a constraint. -/
def exec : Statement → Hierarchy → Option Hierarchy
  | .insert organization, T =>
    if createsCycle T.rows organization then none else T.insert organization
  | .update id parentId rootOrganizationId, T =>
    let new := moved parentId rootOrganizationId
    if T.rows.any fun o => decide (o.id = id) && createsCycle T.rows (new o) then none
    else T.update (·.id = id) new
  | .delete id, T => T.delete (·.id = id)

/-- The table as it was committed last, and as the current transaction has it. -/
structure State where
  committed : Hierarchy
  working : Hierarchy

inductive Label
  | statement (s : Statement)
  | commit
  | rollback
  deriving DecidableEq, Repr

/-- **One step**: transactions are executed one after the other. -/
def step (s : State) : Label → Option State
  | .statement st => (exec st s.working).map fun working => { s with working }
  | .commit =>
    if Organization.RootPresent s.working.rows then some { s with committed := s.working } else none
  | .rollback => some { s with working := s.committed }

/-- The machine of any transactions, from the empty table. -/
def machine : Machine State Label where
  init s := s.committed.rows = [] ∧ s.working = s.committed
  step := step

/-! ## The forest -/

/-- **A forest**: an organization's parents form a chain, in its university, up to the root. -/
def Forest (rows : List Organization) : Prop :=
  ∀ o ∈ rows, ∃ chain, Chain (parentOf rows) o.id chain
    ∧ (∀ id ∈ chain, ∃ q ∈ rows, q.id = id ∧ q.rootOrganizationId = o.rootOrganizationId)
    ∧ chain.getLast? = some o.rootOrganizationId

variable {rows : List Organization} {o : Organization} {T T' : Hierarchy} {a b : Uuid}

theorem find?_eq (hunique : Table.Unique Organization.id rows) (ho : o ∈ rows) :
    rows.find? (·.id = o.id) = some o :=
  hunique.find?_eq ho

theorem parentOf_eq (hunique : Table.Unique Organization.id rows) (ho : o ∈ rows) :
    parentOf rows o.id = o.parentId := by
  rw [parentOf, find?_eq hunique ho]
  rfl

theorem exists_of_parentOf {p : Uuid} (h : parentOf rows a = some p) :
    ∃ o ∈ rows, o.id = a ∧ o.parentId = some p := by
  obtain ⟨o, ho, hparent⟩ := Option.bind_eq_some_iff.mp h
  exact ⟨o, List.mem_of_find?_eq_some ho, by simpa using List.find?_some ho, hparent⟩

/-- The parents are what the rows list them to be. -/
theorem below_iff (hunique : Table.Unique Organization.id rows) :
    Closure.Below (parents rows) b a ↔ Up (parentOf rows) a b := by
  constructor
  · intro h
    obtain ⟨o, ho, heq⟩ := List.mem_map.mp h
    obtain ⟨rfl, hparent⟩ := Prod.mk.inj heq
    exact (parentOf_eq hunique ho).trans hparent
  · intro h
    obtain ⟨o, ho, hid, hparent⟩ := exists_of_parentOf h
    exact List.mem_map.mpr ⟨o, ho, by rw [hid, hparent]⟩

theorem reaches_iff (hunique : Table.Unique Organization.id rows) :
    Relation.ReflTransGen (Closure.Below (parents rows)) b a ↔
      Relation.ReflTransGen (Up (parentOf rows)) a b := by
  rw [← Relation.reflTransGen_swap]
  have hswap : Function.swap (Closure.Below (parents rows)) = Up (parentOf rows) := by
    funext x y
    exact propext (below_iff hunique)
  rw [hswap]

/-- **What the trigger lets through** is not below the row. -/
theorem not_reaches_of_not_createsCycle (hunique : Table.Unique Organization.id rows)
    (h : createsCycle rows o = false) {p : Uuid} (hp : o.parentId = some p) :
    ¬ Relation.ReflTransGen (Up (parentOf rows)) p o.id := by
  intro hpath
  simp only [createsCycle, hp, Option.any_some, Bool.or_eq_false_iff, decide_eq_false_iff_not] at h
  obtain ⟨hself, hbelow⟩ := h
  -- a path that goes up to the row arrives from one of its children
  rcases hpath.cases_tail with heq | ⟨c, hpc, hup⟩
  · exact hself heq.symm
  · refine hbelow (Closure.mem_closure.mpr ⟨c, ?_, (reaches_iff hunique).mpr hpc⟩)
    obtain ⟨q, hq, hid, hparent⟩ := exists_of_parentOf hup
    exact List.mem_map.mpr ⟨q, List.mem_filter.mpr ⟨hq, decide_eq_true hparent⟩, hid⟩

/-! ## What a statement preserves -/

/-- **A statement changes the parent of one organization**, and does not put it below itself. -/
theorem grounded_exec {st : Statement} (h : exec st T = some T')
    (hT : Grounded (parentOf T.rows)) : Grounded (parentOf T'.rows) := by
  cases st with
  | insert organization =>
    simp only [exec, Option.ite_none_left_eq_some, Bool.not_eq_true] at h
    obtain ⟨htrigger, h⟩ := h
    have hnew : T'.find? (·.id = organization.id) = some organization :=
      find?_eq T'.valid.1 ((Table.mem_insert h).mpr (.inr rfl))
    refine hT.update (x := organization.id) (fun a ha => ?_) fun b hb => ?_
    · have hold := Table.find?_insert (k := (·.id = a)) h
      simp only [Ne.symm ha, decide_false, Bool.false_eq_true, if_false, Option.or_none] at hold
      exact congrArg (·.bind (·.parentId)) hold
    · rw [parentOf_eq T'.valid.1 (Table.mem_of_find? hnew)] at hb
      exact not_reaches_of_not_createsCycle T.valid.1 htrigger hb
  | update id parentId rootOrganizationId =>
    simp only [exec, Option.ite_none_left_eq_some, Bool.not_eq_true, List.any_eq_false] at h
    obtain ⟨htrigger, h⟩ := h
    refine hT.update (x := id) (fun a ha => ?_) fun b hb => ?_
    · have hold := Table.find?_update (k := (·.id = a)) h fun _ => rfl
      rw [parentOf, parentOf]
      refine (congrArg (·.bind (·.parentId)) hold).trans ?_
      cases hfind : T.find? (·.id = a) with
      | none => rw [Table.find?] at hfind; rw [hfind]; rfl
      | some o =>
        have hid : o.id = a := by simpa using Table.pred_of_find? hfind
        rw [Table.find?] at hfind
        rw [hfind]
        simp [hid, ha]
    · obtain ⟨o', ho', hid, hparent⟩ := exists_of_parentOf hb
      obtain ⟨o, ho, rfl⟩ := (Table.mem_update h).mp ho'
      by_cases hmatch : o.id = id
      · rw [if_pos (by simpa using hmatch)] at hparent
        have hnot := htrigger o ho
        simp only [hmatch, decide_true, Bool.true_and] at hnot
        have hpath := not_reaches_of_not_createsCycle (o := moved parentId rootOrganizationId o)
          T.valid.1 hnot hparent
        rwa [show (moved parentId rootOrganizationId o).id = id from hmatch] at hpath
      · rw [if_neg (by simpa using hmatch)] at hid
        exact absurd hid hmatch
  | delete id =>
    have hrows := Table.delete_eq_some.mp h
    refine hT.update (x := id) (fun a ha => ?_) fun b hb => ?_
    · rw [parentOf, parentOf, hrows, List.find?_filter]
      congr 2
      funext o
      by_cases hid : o.id = a <;> simp [hid, ha]
    · obtain ⟨o, ho, hid, -⟩ := exists_of_parentOf hb
      have hkept := ((Table.mem_delete h).mp ho).2
      simp [hid] at hkept

/-- **A row's chain stays in its university and ends at the root.** -/
theorem root_of_chain {chain : List Uuid} (h : Chain (parentOf T.rows) a chain) (ho : o ∈ T)
    (hid : o.id = a) :
    (∀ id ∈ chain, ∃ q ∈ T.rows, q.id = id ∧ q.rootOrganizationId = o.rootOrganizationId)
      ∧ chain.getLast? = some o.rootOrganizationId := by
  induction h generalizing o with
  | @top a hnone =>
    rw [← hid, parentOf_eq T.valid.1 ho] at hnone
    refine ⟨fun id hmem => ⟨o, ho, hid.trans (List.mem_singleton.mp hmem).symm, rfl⟩, ?_⟩
    rcases T.valid.2.1 o ho with ⟨-, hroot⟩ | ⟨hsome, -⟩
    · rw [hroot, hid]
      rfl
    · exact absurd hnone hsome
  | @up a b chain hsome hchain ih =>
    have hparent : o.parentId = some b := by rw [← parentOf_eq T.valid.1 ho, hid, hsome]
    obtain ⟨q, hq, hqid, hqroot⟩ := T.valid.2.2 o ho b hparent
    obtain ⟨hall, hlast⟩ := ih hq hqid
    rw [hqroot] at hall hlast
    refine ⟨fun id hmem => ?_, ?_⟩
    · rcases List.mem_cons.mp hmem with rfl | hmem
      · exact ⟨o, ho, hid, rfl⟩
      · exact hall id hmem
    · obtain ⟨t, rfl⟩ := hchain.exists_cons
      rw [List.getLast?_cons_cons, hlast]

/-- A chain is no longer than the table. -/
theorem length_chain_le {chain : List Uuid} (ho : o ∈ T) (h : Chain (parentOf T.rows) o.id chain) :
    chain.length ≤ T.rows.length := by
  rw [← List.length_map fun q : Organization => q.id]
  refine h.length_le fun id hid => ?_
  obtain ⟨q, hq, rfl, -⟩ := (root_of_chain h ho rfl).1 id hid
  exact List.mem_map_of_mem hq

theorem forest_of_grounded (hT : Grounded (parentOf T.rows)) : Forest T.rows := by
  intro o ho
  obtain ⟨chain, hchain⟩ := hT o.id
  exact ⟨chain, hchain, root_of_chain hchain ho rfl⟩

/-! ## One university -/

/-- The organizations of one university. -/
def ofRoot (T : Hierarchy) (rootOrganizationId : Uuid) : Hierarchy where
  rows := T.rows.filter (·.rootOrganizationId = rootOrganizationId)
  valid := by
    refine ⟨T.valid.1.sublist (List.filter_sublist.map _),
      fun o ho => T.valid.2.1 o (List.mem_of_mem_filter ho), fun o ho p hp => ?_⟩
    obtain ⟨ho, hroot⟩ := List.mem_filter.mp ho
    obtain ⟨q, hq, hid, hsame⟩ := T.valid.2.2 o ho p hp
    exact ⟨q, List.mem_filter.mpr ⟨hq, by rwa [hsame]⟩, hid, hsame⟩

variable {root : Uuid}

theorem mem_ofRoot {q : Organization} :
    q ∈ (T.ofRoot root).rows ↔ q ∈ T.rows ∧ q.rootOrganizationId = root := by
  simp [ofRoot]

/-- The chain of an organization is in its university. -/
theorem chain_ofRoot {chain : List Uuid} (h : Chain (parentOf T.rows) o.id chain) (ho : o ∈ T)
    (hroot : o.rootOrganizationId = root) :
    Chain (parentOf (T.ofRoot root).rows) o.id chain := by
  refine h.congr fun b hb => ?_
  obtain ⟨q, hq, rfl, hqroot⟩ := (root_of_chain h ho rfl).1 b hb
  rw [parentOf_eq T.valid.1 hq,
    parentOf_eq (T.ofRoot root).valid.1 (mem_ofRoot.mpr ⟨hq, hqroot.trans hroot⟩)]

theorem grounded_ofRoot (hT : Grounded (parentOf T.rows)) (root : Uuid) :
    Grounded (parentOf (T.ofRoot root).rows) := by
  intro a
  by_cases hmem : ∃ q ∈ T.rows, q.id = a ∧ q.rootOrganizationId = root
  · obtain ⟨q, hq, rfl, hroot⟩ := hmem
    obtain ⟨chain, hchain⟩ := hT q.id
    exact ⟨chain, chain_ofRoot hchain hq hroot⟩
  · refine ⟨[a], .top (Option.eq_none_iff_forall_ne_some.mpr fun p hp => hmem ?_)⟩
    obtain ⟨q, hq, hid, -⟩ := exists_of_parentOf hp
    exact ⟨q, (mem_ofRoot.mp hq).1, hid, (mem_ofRoot.mp hq).2⟩

/-! ## Runs -/

/-- Both tables of a state are without cycles. -/
def Acyclic (s : State) : Prop :=
  Grounded (parentOf s.committed.rows) ∧ Grounded (parentOf s.working.rows)

theorem acyclic_step {s t : State} {l : Label} (h : step s l = some t) (hs : Acyclic s) :
    Acyclic t := by
  cases l with
  | statement st =>
    obtain ⟨T, hT, rfl⟩ := Option.map_eq_some_iff.mp h
    exact ⟨hs.1, grounded_exec hT hs.2⟩
  | commit =>
    simp only [step, Option.ite_none_right_eq_some, Option.some.injEq] at h
    obtain ⟨-, rfl⟩ := h
    exact ⟨hs.2, hs.2⟩
  | rollback =>
    obtain rfl := Option.some.inj h
    exact ⟨hs.1, hs.1⟩

/-- **No statements make a cycle.** -/
theorem acyclic_of_reachable {s : State} (h : machine.Reachable Machine.free s) : Acyclic s := by
  obtain ⟨t, ⟨hempty, hsame⟩, hrun⟩ := h
  refine hrun.invariant ?_ fun hs _ hstep => acyclic_step hstep hs
  have hgrounded : Grounded (parentOf t.committed.rows) := fun a =>
    ⟨[a], .top (by rw [parentOf, hempty]; rfl)⟩
  exact ⟨hgrounded, hsame ▸ hgrounded⟩

/-- A university and one organization below it. -/
def university : List Organization := [⟨1, none, 1, .active⟩, ⟨2, some 1, 1, .active⟩]

theorem reachable_university : ∃ s, machine.Reachable Machine.free s
    ∧ s.committed.rows = university := by
  obtain ⟨s, hs, hrows⟩ := machine.exists_reachable
    (s := ⟨⟨[], by decide⟩, ⟨[], by decide⟩⟩) (p := fun s => decide (s.committed.rows = university))
    [.statement (.insert ⟨1, none, 1, .active⟩), .statement (.insert ⟨2, some 1, 1, .active⟩),
      .commit] ⟨rfl, rfl⟩ (by decide)
  exact ⟨s, hs, of_decide_eq_true hrows⟩

end Hierarchy

end ResourceHive.Organizations
