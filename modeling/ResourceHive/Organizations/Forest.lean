import ResourceHive.Organizations.AutoApproval
import ResourceHive.Organizations.Guards

/-!
# Organizations/Forest — the loops over ancestors end

No loop over the ancestors of an organization has a guard against cycles: each relies on the table
being a forest.  It is one in every state that statements lead to, within a transaction and after it,
so the loops end wherever they begin, and with them the calls that run them
(`hierarchy_stays_forest`).
-/

namespace ResourceHive.Organizations

open Ancestry
open Bookings (Resource)

namespace Hierarchy

variable {T : Hierarchy} {root a b : Uuid}

theorem mem_of_parentOf (h : parentOf T.rows a = some b) : b ∈ T.rows.map (·.id) := by
  obtain ⟨o, ho, -, hparent⟩ := exists_of_parentOf h
  obtain ⟨q, hq, rfl, -⟩ := T.valid.2.2 o ho b hparent
  exact List.mem_map_of_mem hq

theorem mem_of_parentRow {o q : Organization} (h : parentRow T.rows root o = some q) :
    q ∈ T.rows ∧ q.rootOrganizationId = root := by
  obtain ⟨p, -, hfind⟩ := Option.bind_eq_some_iff.mp h
  have hmatch := List.find?_some hfind
  simp only [Bool.and_eq_true, decide_eq_true_eq] at hmatch
  exact ⟨List.mem_of_find?_eq_some hfind, hmatch.2⟩

/-- Rows have chains, as their ids do. -/
theorem grounded_parentRow (hT : Grounded (parentOf T.rows)) (root : Uuid) :
    Grounded (parentRow T.rows root) := by
  intro o
  cases hparent : parentRow T.rows root o with
  | none => exact ⟨[o], .top hparent⟩
  | some q =>
    obtain ⟨hq, hroot⟩ := mem_of_parentRow hparent
    obtain ⟨chain, hchain⟩ := hT q.id
    obtain ⟨os, hos, -⟩ := exists_rows_of_chain hchain hq rfl hroot
    exact ⟨o :: os, .up hparent hos⟩

end Hierarchy

/-! ## The loops -/

/-- **The loops end, wherever they begin**, and so do the calls: within `fuel` rounds. -/
structure WalksEnd (fuel : ℕ) (db : Registry) : Prop where
  visitAncestor : ∀ root userId target start,
    (climb (visitAncestor (db.toDatabase.visibleTo root) userId target) (fun _ => none) fuel
      () start).isSome
  visitOwner : ∀ root administratorIds start,
    (climb (visitOwner (db.toDatabase.visibleTo root).organizations root administratorIds)
      (fun _ => false) fuel () start).isSome
  rulePath : ∀ root start, (rulePath fuel (db.tree root) start).isSome
  tenantGuard : ∀ user organizationId,
    (tenantGuard fuel db.toDatabase user organizationId).isSome
  canManageResource : ∀ resources resourceId userId root,
    (canManageResource fuel (db.toDatabase.visibleTo root) resources resourceId userId root).isSome
  requestMembership : ∀ text session organizationId x,
    (requestMembership text fuel db session organizationId x).isSome
  verifyEmail : ∀ text hashToken token x, (verifyEmail text hashToken fuel db token x).isSome

variable {T : Hierarchy} {db : Registry} {fuel : ℕ}

/-- A loop of steps that all end. -/
theorem isSome_foldlM {σ β : Type*} {step : σ → β → Option σ} (hstep : ∀ s b, (step s b).isSome) :
    ∀ (l : List β) (s : σ), (l.foldlM step s).isSome
  | [], _ => rfl
  | b :: l, s => by
      obtain ⟨s', hs'⟩ := Option.isSome_iff_exists.mp (hstep s b)
      rw [List.foldlM_cons, hs']
      exact isSome_foldlM hstep l s'

section Loops

variable (hT : Grounded (parentOf T.rows)) (hdb : db.organizations = T.rows)
  (hfuel : T.rows.length < fuel)

include hfuel in
theorem length_ofRoot_lt (root : Uuid) : (T.ofRoot root).rows.length < fuel :=
  (List.length_filter_le _ _).trans_lt hfuel

include hT hdb hfuel

theorem visitAncestor_ends (root userId : Uuid) (target : Organization) (start : Option Uuid) :
    (climb (visitAncestor (db.toDatabase.visibleTo root) userId target) (fun _ => none) fuel
      () start).isSome :=
  climb_isSome (follows_visitAncestor (organizations_visibleTo hdb root))
    (Hierarchy.grounded_ofRoot hT root) (fun _ _ => Hierarchy.mem_of_parentOf)
    (by rw [List.length_map]; exact length_ofRoot_lt hfuel root) () start

theorem visitOwner_ends (root : Uuid) (administratorIds : List Uuid) (start : Option Organization) :
    (climb (visitOwner (db.toDatabase.visibleTo root).organizations root administratorIds)
      (fun _ => false) fuel () start).isSome := by
  rw [organizations_visibleTo hdb root]
  exact climb_isSome follows_visitOwner
    (Hierarchy.grounded_parentRow (Hierarchy.grounded_ofRoot hT root) root)
    (fun _ _ h => (Hierarchy.mem_of_parentRow h).1) (length_ofRoot_lt hfuel root) () start

theorem rulePath_ends (root start : Uuid) : (rulePath fuel (db.tree root) start).isSome := by
  rw [show db.tree root = (T.ofRoot root).rows from organizations_visibleTo hdb root]
  exact climb_isSome (follows_visitRule _) (Hierarchy.grounded_ofRoot hT root)
    (fun _ _ => Hierarchy.mem_of_parentOf)
    (by rw [List.length_map]; exact length_ofRoot_lt hfuel root) [] (some start)

/-! ## The calls -/

theorem tenantGuard_ends (user : Option RequestUser) (organizationId : Option Uuid) :
    (tenantGuard fuel db.toDatabase user organizationId).isSome := by
  unfold tenantGuard
  split
  · rfl
  · rfl
  · split
    · rfl
    · rw [Option.isSome_map, checkOrganizationAccess]
      split
      · rfl
      · split
        · rfl
        · split
          · rfl
          · rw [Option.isSome_map]
            exact visitAncestor_ends hT hdb hfuel _ _ _ _

theorem canManageResource_ends (resources : Table Resource (Table.Unique Resource.id))
    (resourceId userId root : Uuid) :
    (canManageResource fuel (db.toDatabase.visibleTo root) resources resourceId userId
      root).isSome := by
  unfold canManageResource
  split
  · rfl
  · exact visitOwner_ends hT hdb hfuel _ _ _

theorem membershipsToApprove_ends (text : TextFunctions) (email : String)
    (organization : Organization) : (membershipsToApprove text fuel db email organization).isSome :=
  isSome_foldlM (fun _ _ => by
    rw [requestRule, Option.isSome_map]
    exact rulePath_ends hT hdb hfuel _ _) _ _

theorem requestMembership_ends (text : TextFunctions) (session : RequestUser) (organizationId : Uuid)
    (x : Supply) : (requestMembership text fuel db session organizationId x).isSome := by
  unfold requestMembership
  split
  · rfl
  · next root _ =>
  have hvisible : (db.visibleTo root).organizations = (T.ofRoot root).rows :=
    organizations_visibleTo hdb root
  have hgrounded := Hierarchy.grounded_ofRoot hT root
  unfold requestIn
  split
  · rfl
  · split
    · rfl
    · split
      · rfl
      · split
        · rfl
        · rw [Option.isSome_map]
          exact membershipsToApprove_ends hgrounded hvisible (length_ofRoot_lt hfuel root) _ _ _

theorem organizationsToJoin_ends (text : TextFunctions) (email : String)
    (rule : OrganizationEmailDomain) (root : Uuid) :
    (organizationsToJoin text fuel db email rule root).isSome :=
  isSome_foldlM (fun _ _ => by
    rw [verifyRule, Option.isSome_map]
    exact rulePath_ends hT hdb hfuel _ _) _ _

theorem verifyEmail_ends (text : TextFunctions) (hashToken : String → String) (token : String)
    (x : Supply) : (verifyEmail text hashToken fuel db token x).isSome := by
  unfold verifyEmail
  split
  · rfl
  · split
    · rfl
    · split
      · rfl
      · split
        · rfl
        · split
          · rfl
          · split
            · rfl
            · next hclaim =>
              obtain ⟨verificationTokens, -, rfl⟩ := Option.map_eq_some_iff.mp hclaim
              rw [Option.isSome_map]
              exact organizationsToJoin_ends hT hdb hfuel _ _ _ _

end Loops

/-! ## Every state -/

/-- **The organizations stay a forest**: after any statements that the constraints and the trigger
let through, within a transaction and after it, each organization has a finite chain of parents, all
in its university, up to the organization whose id its root is.  So all loops over ancestors end. -/
theorem hierarchy_stays_forest {s : Hierarchy.State}
    (hs : Hierarchy.machine.Reachable Machine.free s) :
    Hierarchy.Forest s.committed.rows ∧ Hierarchy.Forest s.working.rows
      ∧ ∀ db : Registry, db.organizations = s.committed.rows ∨ db.organizations = s.working.rows →
        ∀ fuel, db.organizations.length < fuel → WalksEnd fuel db := by
  obtain ⟨hcommitted, hworking⟩ := Hierarchy.acyclic_of_reachable hs
  have hends (T : Hierarchy) (hT : Grounded (parentOf T.rows)) (db : Registry)
      (hdb : db.organizations = T.rows) (fuel : ℕ) (hfuel : db.organizations.length < fuel) :
      WalksEnd fuel db := by
    rw [hdb] at hfuel
    exact {
      visitAncestor := visitAncestor_ends hT hdb hfuel
      visitOwner := visitOwner_ends hT hdb hfuel
      rulePath := rulePath_ends hT hdb hfuel
      tenantGuard := tenantGuard_ends hT hdb hfuel
      canManageResource := canManageResource_ends hT hdb hfuel
      requestMembership := requestMembership_ends hT hdb hfuel
      verifyEmail := verifyEmail_ends hT hdb hfuel }
  refine ⟨Hierarchy.forest_of_grounded hcommitted, Hierarchy.forest_of_grounded hworking, ?_⟩
  rintro db (hdb | hdb) fuel hfuel
  · exact hends s.committed hcommitted db hdb fuel hfuel
  · exact hends s.working hworking db hdb fuel hfuel

/-- A department that has moved below the faculty beside it. -/
def reorganized : List Organization :=
  [⟨1, none, 1, .active⟩, ⟨2, some 1, 1, .active⟩, ⟨3, some 2, 1, .active⟩]

/-- A department moves below the faculty beside it, and the organizations still form a forest.  The
faculty cannot follow it. -/
theorem hierarchy_stays_forest_of_move : ∃ s, Hierarchy.machine.Reachable Machine.free s
    ∧ s.committed.rows = reorganized ∧ Hierarchy.Forest s.committed.rows
    ∧ Hierarchy.step s (.statement (.update 2 (some (some 3)) none)) = none := by
  obtain ⟨s, hs, hmoved⟩ := Hierarchy.machine.exists_reachable
    (s := ⟨⟨[], by decide⟩, ⟨[], by decide⟩⟩)
    (p := fun s => decide (s.committed.rows = reorganized)
      && (Hierarchy.step s (.statement (.update 2 (some (some 3)) none))).isNone)
    [.statement (.insert ⟨1, none, 1, .active⟩), .statement (.insert ⟨2, some 1, 1, .active⟩),
      .statement (.insert ⟨3, some 1, 1, .active⟩), .commit,
      .statement (.update 3 (some (some 2)) none), .commit] ⟨rfl, rfl⟩ (by decide)
  rw [Bool.and_eq_true, decide_eq_true_eq, Option.isNone_iff_eq_none] at hmoved
  exact ⟨s, hs, hmoved.1, (hierarchy_stays_forest hs).1, hmoved.2⟩

end ResourceHive.Organizations
