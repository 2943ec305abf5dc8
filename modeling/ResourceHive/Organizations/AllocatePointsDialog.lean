import ResourceHive.Organizations.Hierarchy
import ResourceHive.Organizations.SemesterPoints

/-!
# Organizations/AllocatePointsDialog — which organizations the dialog selects

The dialog shows a box for the whole university and one for each organization below it, and keeps
the list `targetOrganizationIds`.  A box whose organization is *covered*, by the university or by a
selected organization above it, is checked and disabled; checking another drops what lies below it
from the list.  So the list is an antichain after any toggles, and the boxes that are checked are
those of the organizations that a call with the list pays (`targets_antichain`).
-/

namespace ResourceHive.Organizations.AllocatePointsDialog

open Ancestry Relation

/-! ## The dialog -/

/-- What the dialog was opened for: the university, and the organizations below it as
`getRootOrganizationDescendants` returned them. -/
structure Props where
  rootOrganizationId : Uuid
  descendants : List Organization
  deriving DecidableEq, Repr

variable (D : Props) (fuel : ℕ)

/-- The parent of one of `descendants`. -/
abbrev Props.parent (D : Props) : Uuid → Option Uuid := parentOf D.descendants

/-- **`isDescendantOf`**: whether `parentId` is above `childId`; `none` if the loop has not ended
after `fuel` rounds. -/
def isDescendantOf (childId parentId : Uuid) : Option Bool :=
  climb (search D.parent (· = parentId)) notFound fuel () (D.parent childId)

/-- **`isCoveredByAncestor`** -/
def isCoveredByAncestor (targetOrganizationIds : List Uuid) (org : Organization) : Option Bool :=
  if D.rootOrganizationId ∈ targetOrganizationIds then some true
  else climb (search D.parent (· ∈ targetOrganizationIds)) notFound fuel () org.parentId

/-- `onCheckedChange` of the box for the university. -/
def onRootCheckedChange (c : Bool) (prev : List Uuid) : List Uuid :=
  if c then [D.rootOrganizationId] else prev.filter (· ≠ D.rootOrganizationId)

/-- `onCheckedChange` of the box of an organization. -/
def onCheckedChange (org : Organization) (c : Bool) (prev : List Uuid) : Option (List Uuid) :=
  if c then
    if D.rootOrganizationId ∈ prev then some [org.id]
    else do
      let newSelection ← prev.filterM fun id => (isDescendantOf D fuel id org.id).map (!·)
      pure (newSelection ++ [org.id])
  else some (prev.filter (· ≠ org.id))

/-- `checked` of the box for the university. -/
def rootChecked (targetOrganizationIds : List Uuid) : Bool :=
  decide (D.rootOrganizationId ∈ targetOrganizationIds)

/-- `checked` of the box of an organization. -/
def checked (targetOrganizationIds : List Uuid) (org : Organization) : Option Bool :=
  (isCoveredByAncestor D fuel targetOrganizationIds org).map fun covered =>
    covered || decide (org.id ∈ targetOrganizationIds)

/-- The boxes. -/
inductive Toggle
  | root
  | organization (org : Organization)
  deriving DecidableEq, Repr

/-- **A toggle**, of a box that is shown and not disabled: it calls the handler with the value the
box did not have. -/
def toggle (targetOrganizationIds : List Uuid) : Toggle → Option (List Uuid)
  | .root => some (onRootCheckedChange D (!rootChecked D targetOrganizationIds) targetOrganizationIds)
  | .organization org =>
    if org ∈ D.descendants ∧ isCoveredByAncestor D fuel targetOrganizationIds org = some false then do
      let c ← checked D fuel targetOrganizationIds org
      onCheckedChange D fuel org (!c) targetOrganizationIds
    else none

/-- The machine of all toggles.  The dialog opens with the university selected; nothing selected is
one toggle away. -/
def machine : Machine (List Uuid) Toggle where
  init s := s = [] ∨ s = [D.rootOrganizationId]
  step := toggle D fuel

/-! ## Organizations that form a tree -/

/-- **A tree below the university**: each organization is listed once and has a parent, which is
listed or the university, and parents do not form a cycle. -/
structure Props.Tree (D : Props) : Prop where
  unique : Table.Unique Organization.id D.descendants
  rootNotListed : ∀ o ∈ D.descendants, o.id ≠ D.rootOrganizationId
  parentListed : ∀ o ∈ D.descendants, ∃ p, o.parentId = some p ∧
    (p = D.rootOrganizationId ∨ p ∈ D.descendants.map (·.id))
  grounded : Grounded D.parent

/-- `findChildren`: the rows of a university that have a parent. -/
def findChildren (T : Hierarchy) (rootOrganizationId : Uuid) : List Organization :=
  (T.ofRoot rootOrganizationId).rows.filter (·.parentId.isSome)

/-- A row without a parent says the same as no row. -/
theorem parentOf_findChildren (T : Hierarchy) (root id : Uuid) :
    parentOf (findChildren T root) id = parentOf (T.ofRoot root).rows id := by
  refine Option.ext fun p => ?_
  constructor
  · intro h
    obtain ⟨o, ho, rfl, hparent⟩ := Hierarchy.exists_of_parentOf h
    rw [Hierarchy.parentOf_eq (T.ofRoot root).valid.1 (List.mem_of_mem_filter ho), hparent]
  · intro h
    obtain ⟨o, ho, rfl, hparent⟩ := Hierarchy.exists_of_parentOf h
    have hunique : Table.Unique Organization.id (findChildren T root) :=
      (T.ofRoot root).valid.1.sublist (List.filter_sublist.map _)
    have hmem : o ∈ findChildren T root := List.mem_filter.mpr ⟨ho, by rw [hparent]; rfl⟩
    rw [Hierarchy.parentOf_eq hunique hmem, hparent]

/-- **The rows of a university without cycles form a tree.** -/
theorem tree_findChildren {T : Hierarchy} (hT : Grounded (parentOf T.rows)) (root : Uuid) :
    (Props.mk root (findChildren T root)).Tree where
  unique := (T.ofRoot root).valid.1.sublist (List.filter_sublist.map _)
  rootNotListed o ho := by
    obtain ⟨ho, hsome⟩ := List.mem_filter.mp ho
    obtain ⟨ho, hroot⟩ := Hierarchy.mem_ofRoot.mp ho
    rcases T.valid.2.1 o ho with ⟨hnone, -⟩ | ⟨-, hne⟩
    · simp [hnone] at hsome
    · exact fun heq => hne (hroot.trans heq.symm)
  parentListed o ho := by
    obtain ⟨ho, hsome⟩ := List.mem_filter.mp ho
    obtain ⟨p, hp⟩ := Option.isSome_iff_exists.mp hsome
    refine ⟨p, hp, ?_⟩
    obtain ⟨q, hq, rfl, hsame⟩ := (T.ofRoot root).valid.2.2 o ho p hp
    rcases (T.ofRoot root).valid.2.1 q hq with ⟨-, hroot⟩ | ⟨hne, -⟩
    · exact .inl (hroot.symm.trans (Hierarchy.mem_ofRoot.mp hq).2)
    · exact .inr (List.mem_map_of_mem
        (List.mem_filter.mpr ⟨hq, Option.isSome_iff_ne_none.mpr hne⟩))
  grounded := by
    have hsame : (Props.mk root (findChildren T root)).parent = parentOf (T.ofRoot root).rows :=
      funext fun id => parentOf_findChildren T root id
    rw [hsame]
    exact Hierarchy.grounded_ofRoot hT root

/-- …and no statements make a cycle. -/
theorem tree_of_reachable {st : Hierarchy.State} (h : Hierarchy.machine.Reachable Machine.free st)
    (root : Uuid) : (Props.mk root (findChildren st.committed root)).Tree :=
  tree_findChildren (Hierarchy.acyclic_of_reachable h).1 root

/-! ## What the loops find -/

section Tree

variable {D fuel} {s s' : List Uuid} {o : Organization} {a b : Uuid}

/-- The organizations the dialog has a box for. -/
def Props.shown (D : Props) : List Uuid := D.rootOrganizationId :: D.descendants.map (·.id)

theorem Props.Tree.parent_eq (hD : D.Tree) (ho : o ∈ D.descendants) : D.parent o.id = o.parentId :=
  Hierarchy.parentOf_eq hD.unique ho

theorem mem_shown_of_parent (hD : D.Tree) {p : Uuid} (h : D.parent a = some p) : p ∈ D.shown := by
  obtain ⟨o, ho, -, hp⟩ := Hierarchy.exists_of_parentOf h
  obtain ⟨q, hq, hq'⟩ := hD.parentListed o ho
  obtain rfl := Option.some.inj (hp.symm.trans hq)
  exact List.mem_cons.mpr hq'

theorem length_shown_le (hfuel : D.descendants.length < fuel) : D.shown.length ≤ fuel := by
  simpa [Props.shown] using hfuel

theorem parent_root (hD : D.Tree) : D.parent D.rootOrganizationId = none := by
  refine Option.eq_none_iff_forall_ne_some.mpr fun p hp => ?_
  obtain ⟨o, ho, hid, -⟩ := Hierarchy.exists_of_parentOf hp
  exact hD.rootNotListed o ho hid

/-- **The university is above every organization.** -/
theorem root_above (hD : D.Tree) (ho : o ∈ D.descendants) :
    TransGen (Up D.parent) o.id D.rootOrganizationId := by
  obtain ⟨l, hl⟩ := hD.grounded o.id
  generalize hid : o.id = a at hl
  induction hl generalizing o with
  | top hnone =>
    obtain ⟨p, hp, -⟩ := hD.parentListed o ho
    rw [← hid, hD.parent_eq ho, hp] at hnone
    cases hnone
  | @up a b l hsome _ ih =>
    obtain ⟨p, hp, hlisted⟩ := hD.parentListed o ho
    have hpb : some p = some b := by rw [← hp, ← hD.parent_eq ho, hid, hsome]
    obtain rfl := Option.some.inj hpb
    rcases hlisted with rfl | hlisted
    · exact .single hsome
    · obtain ⟨q, hq, hqp⟩ := List.mem_map.mp hlisted
      exact .head hsome (ih hq hqp)

section Loops

open scoped Classical in
/-- **`isDescendantOf` ends**, and says what its name says. -/
theorem isDescendantOf_eq (hD : D.Tree) (hfuel : D.descendants.length < fuel) (a b : Uuid) :
    isDescendantOf D fuel a b = some (decide (TransGen (Up D.parent) a b)) := by
  obtain ⟨found, hfound, hiff⟩ := climb_search hD.grounded (fun _ _ => mem_shown_of_parent hD)
    (length_shown_le hfuel) (· = b) a
  rw [isDescendantOf, hfound]
  exact congrArg some (Bool.eq_iff_iff.mpr (by simpa using hiff))

open scoped Classical in
/-- **`isCoveredByAncestor` ends**, and says whether an organization above is selected. -/
theorem isCoveredByAncestor_eq (hD : D.Tree) (hfuel : D.descendants.length < fuel)
    (ho : o ∈ D.descendants) (s : List Uuid) : isCoveredByAncestor D fuel s o =
      some (decide (∃ t ∈ s, TransGen (Up D.parent) o.id t)) := by
  unfold isCoveredByAncestor
  split
  · rename_i hroot
    rw [decide_eq_true ⟨_, hroot, root_above hD ho⟩]
  · obtain ⟨found, hfound, hiff⟩ := climb_search hD.grounded (fun _ _ => mem_shown_of_parent hD)
      (length_shown_le hfuel) (· ∈ s) o.id
    rw [← hD.parent_eq ho, hfound]
    exact congrArg some (Bool.eq_iff_iff.mpr (by simpa [and_comm] using hiff))

open scoped Classical in
/-- **A box is checked** if its organization, or one above it, is selected. -/
theorem checked_eq (hD : D.Tree) (hfuel : D.descendants.length < fuel) (ho : o ∈ D.descendants)
    (s : List Uuid) : checked D fuel s o =
      some (decide (∃ t ∈ s, ReflTransGen (Up D.parent) o.id t)) := by
  rw [checked, isCoveredByAncestor_eq hD hfuel ho, Option.map_some, ← Bool.decide_or]
  refine congrArg some (decide_eq_decide.mpr ?_)
  simp only [reflTransGen_iff_eq_or_transGen]
  constructor
  · rintro (⟨t, ht, hpath⟩ | hself)
    · exact ⟨t, ht, .inr hpath⟩
    · exact ⟨o.id, hself, .inl rfl⟩
  · rintro ⟨t, ht, rfl | hpath⟩
    · exact .inr ht
    · exact .inl ⟨t, ht, hpath⟩

end Loops

/-! ## What a toggle keeps -/

/-- A filter whose test never fails is a filter. -/
theorem filterM_eq {α : Type} {f : α → Option Bool} {p : α → Bool} (hf : ∀ a, f a = some (p a))
    (l : List α) : l.filterM f = some (l.filter p) := by
  have key (l kept : List α) : l.filterAuxM f kept = some ((l.filter p).reverse ++ kept) := by
    induction l generalizing kept with
    | nil => rfl
    | cons a l ih =>
      rw [List.filterAuxM, hf]
      cases hp : p a <;> simp [ih, hp]
  simp [List.filterM, key]

/-- **The selection**: an antichain of organizations that are shown. -/
structure Selection (D : Props) (s : List Uuid) : Prop where
  antichain : Antichain D.parent s
  shown : s ⊆ D.shown

theorem Selection.sublist (h : Selection D s) (hsub : s'.Sublist s) : Selection D s' :=
  ⟨h.antichain.sublist hsub, List.Subset.trans hsub.subset h.shown⟩

theorem Selection.nil : Selection D [] := ⟨.nil, List.nil_subset _⟩

theorem Selection.root (hD : D.Tree) : Selection D [D.rootOrganizationId] :=
  ⟨.singleton hD.grounded _, by simp [Props.shown]⟩

/-- **If the university is selected, it is the only one.** -/
theorem Selection.eq_root (h : Selection D s) (hD : D.Tree) (hroot : D.rootOrganizationId ∈ s) :
    s = [D.rootOrganizationId] := by
  refine List.perm_singleton.mp ((List.perm_ext_iff_of_nodup h.antichain.nodup
    (List.nodup_singleton _)).mpr fun a => ?_)
  rw [List.mem_singleton]
  constructor
  · intro ha
    rcases List.mem_cons.mp (h.shown ha) with heq | hlisted
    · exact heq
    · obtain ⟨o, ho, rfl⟩ := List.mem_map.mp hlisted
      exact absurd (root_above hD ho) (h.antichain.above _ ha _ hroot)
  · rintro rfl
    exact hroot

theorem Selection.onRootCheckedChange (h : Selection D s) (hD : D.Tree) (c : Bool) :
    Selection D (onRootCheckedChange D c s) := by
  cases c with
  | true => exact .root hD
  | false => exact h.sublist List.filter_sublist

/-- **Selecting an organization that is not covered** drops what lies below it. -/
theorem Selection.select (h : Selection D s) (hD : D.Tree)
    (hfuel : D.descendants.length < fuel) (ho : o ∈ D.descendants) (hnot : o.id ∉ s)
    (hcovered : ∀ t ∈ s, ¬ TransGen (Up D.parent) o.id t) :
    ∃ s', onCheckedChange D fuel o true s = some s' ∧ Selection D s' := by
  classical
  have hroot : D.rootOrganizationId ∉ s := fun hroot => hcovered _ hroot (root_above hD ho)
  let kept := s.filter fun id => !decide (TransGen (Up D.parent) id o.id)
  have hkept : kept.Sublist s := List.filter_sublist
  have hfilter : (s.filterM fun id => (isDescendantOf D fuel id o.id).map (!·)) = some kept :=
    filterM_eq (fun id => by rw [isDescendantOf_eq hD hfuel]; rfl) s
  refine ⟨kept ++ [o.id], ?_, ⟨?_, ?_⟩⟩
  · rw [AllocatePointsDialog.onCheckedChange, if_pos rfl, if_neg hroot, hfilter]
    rfl
  · refine (h.antichain.sublist hkept).concat hD.grounded (fun hmem => hnot (hkept.subset hmem))
      (fun b hb => ?_) (fun b hb => hcovered b (hkept.subset hb))
    simpa using (List.mem_filter.mp hb).2
  · refine List.append_subset.mpr ⟨List.Subset.trans hkept.subset h.shown, ?_⟩
    exact List.cons_subset.mpr
      ⟨List.mem_cons_of_mem _ (List.mem_map_of_mem ho), List.nil_subset _⟩

/-- Whether a box is shown and not disabled. -/
def Enabled (D : Props) (s : List Uuid) : Toggle → Prop
  | .root => True
  | .organization o => o ∈ D.descendants ∧ ∀ t ∈ s, ¬ TransGen (Up D.parent) o.id t

/-- **The step lemma**: a box that is not disabled can be toggled, and no other; and what is
selected then is a selection again. -/
theorem Selection.toggle (h : Selection D s) (hD : D.Tree) (hfuel : D.descendants.length < fuel)
    (l : Toggle) : (Enabled D s l → ∃ s', toggle D fuel s l = some s' ∧ Selection D s')
      ∧ (¬ Enabled D s l → toggle D fuel s l = none) := by
  classical
  cases l with
  | root => exact ⟨fun _ => ⟨_, rfl, h.onRootCheckedChange hD _⟩, fun hdis => absurd trivial hdis⟩
  | organization o =>
    constructor
    · rintro ⟨ho, hcovered⟩
      have hbox : isCoveredByAncestor D fuel s o = some false := by
        rw [isCoveredByAncestor_eq hD hfuel ho, decide_eq_false]
        exact fun ⟨t, ht, hpath⟩ => hcovered t ht hpath
      simp only [AllocatePointsDialog.toggle, hbox, ho, checked, true_and, if_true, Option.map_some,
        Bool.false_or, Option.bind_eq_bind, Option.bind_some]
      by_cases hmem : o.id ∈ s
      · rw [decide_eq_true hmem]
        exact ⟨_, rfl, h.sublist List.filter_sublist⟩
      · rw [decide_eq_false hmem]
        exact h.select hD hfuel ho hmem hcovered
    · intro hdis
      refine if_neg fun ⟨ho, hbox⟩ => hdis ⟨ho, fun t ht hpath => ?_⟩
      rw [isCoveredByAncestor_eq hD hfuel ho] at hbox
      exact of_decide_eq_false (Option.some.inj hbox) ⟨t, ht, hpath⟩

/-- The run lemma. -/
theorem selection_of_reachable (hD : D.Tree) (hfuel : D.descendants.length < fuel)
    (h : (machine D fuel).Reachable Machine.free s) : Selection D s := by
  refine h.invariant ?_ fun {t l u} ht _ hstep => ?_
  · rintro s (rfl | rfl)
    · exact .nil
    · exact .root hD
  · by_cases hl : Enabled D t l
    · obtain ⟨u', hu', hsel⟩ := (ht.toggle hD hfuel l).1 hl
      obtain rfl := Option.some.inj (hu'.symm.trans hstep)
      exact hsel
    · cases ((ht.toggle hD hfuel l).2 hl).symm.trans hstep

/-! ## What the list pays -/

/-- The organizations of the university with their parents, as `allocateSemesterPoints` reads
them. -/
def Props.allOrgs (D : Props) : List (Uuid × Option Uuid) :=
  (D.rootOrganizationId, none) :: Hierarchy.parents D.descendants

/-- **A call with the list pays** the members of what lies at or below one of its organizations. -/
theorem mem_descendants_allOrgs (hD : D.Tree) :
    a ∈ descendants D.allOrgs s ↔ ∃ t ∈ s, ReflTransGen (Up D.parent) a t := by
  have hbelow : Closure.Below D.allOrgs = Closure.Below (Hierarchy.parents D.descendants) := by
    funext x y
    simp [Closure.Below, Props.allOrgs]
  rw [mem_descendants, hbelow]
  exact exists_congr fun t => and_congr_right fun _ => Hierarchy.reaches_iff hD.unique

/-- **The list is an antichain after any toggles**: nothing is selected twice or below something
selected, and the university only alone.  Every box that is not disabled can be toggled.  The boxes
that are checked are those of the organizations whose chain contains a selected one; these are the
organizations a call with the list pays, and no two of the list have one in common. -/
theorem targets_antichain (hD : D.Tree) (hfuel : D.descendants.length < fuel)
    (h : (machine D fuel).Reachable Machine.free s) :
    s.Nodup ∧ s ⊆ D.shown
      ∧ (∀ a ∈ s, ∀ b ∈ s, ¬ TransGen (Up D.parent) a b)
      ∧ (D.rootOrganizationId ∈ s → s = [D.rootOrganizationId])
      ∧ (∀ l, (toggle D fuel s l).isSome ↔ Enabled D s l)
      ∧ (rootChecked D s = true ↔ ∃ t ∈ s, ReflTransGen (Up D.parent) D.rootOrganizationId t)
      ∧ (rootChecked D s = true ↔ D.rootOrganizationId ∈ descendants D.allOrgs s)
      ∧ (∀ o ∈ D.descendants, ∃ c, checked D fuel s o = some c
          ∧ (c = true ↔ ∃ t ∈ s, ReflTransGen (Up D.parent) o.id t)
          ∧ (c = true ↔ o.id ∈ descendants D.allOrgs s))
      ∧ s.Pairwise fun a b => List.Disjoint (descendants D.allOrgs [a]) (descendants D.allOrgs [b])
      := by
  classical
  have hsel := selection_of_reachable hD hfuel h
  have hrootChecked : rootChecked D s = true ↔
      ∃ t ∈ s, ReflTransGen (Up D.parent) D.rootOrganizationId t := by
    rw [rootChecked, decide_eq_true_iff]
    constructor
    · exact fun hroot => ⟨_, hroot, .refl⟩
    · rintro ⟨t, ht, hpath⟩
      rcases hpath.cases_head with rfl | ⟨b, hup, -⟩
      · exact ht
      · cases (parent_root hD).symm.trans hup
  refine ⟨hsel.antichain.nodup, hsel.shown, hsel.antichain.above, hsel.eq_root hD, fun l => ?_,
    hrootChecked, hrootChecked.trans (mem_descendants_allOrgs hD).symm, fun o ho => ?_, ?_⟩
  · by_cases hl : Enabled D s l
    · obtain ⟨s', hs', -⟩ := (hsel.toggle hD hfuel l).1 hl
      simp [hs', hl]
    · simp [(hsel.toggle hD hfuel l).2 hl, hl]
  · refine ⟨_, checked_eq hD hfuel ho s, decide_eq_true_iff, ?_⟩
    rw [decide_eq_true_iff, mem_descendants_allOrgs hD]
  · refine hsel.antichain.nodup.imp_of_mem fun {a b} ha hb hne x hxa hxb => hne ?_
    simp only [mem_descendants_allOrgs hD, List.mem_singleton, exists_eq_left] at hxa hxb
    exact hsel.antichain.eq_of_below ha hb hxa hxb

end Tree

/-! ## A university -/

/-- A faculty with a department below it, and a second faculty. -/
def university : Props where
  rootOrganizationId := 1
  descendants := [⟨3, some 2, 1, .active⟩, ⟨2, some 1, 1, .active⟩, ⟨4, some 1, 1, .active⟩]

theorem university_tree : university.Tree where
  unique := by decide
  rootNotListed := by decide
  parentListed := by
    intro o ho
    simp only [university, List.mem_cons, List.not_mem_nil, or_false] at ho
    rcases ho with rfl | rfl | rfl <;> exact ⟨_, rfl, by decide⟩
  grounded := by
    have h1 : Chain university.parent 1 [1] := .top rfl
    have h2 : Chain university.parent 2 [2, 1] := .up rfl h1
    intro a
    by_cases ha : a ∈ university.descendants.map (·.id)
    · simp only [university, List.map_cons, List.map_nil, List.mem_cons, List.not_mem_nil,
        or_false] at ha
      rcases ha with rfl | rfl | rfl
      · exact ⟨_, .up rfl h2⟩
      · exact ⟨_, h2⟩
      · exact ⟨_, .up rfl h1⟩
    · refine ⟨[a], .top (Option.eq_none_iff_forall_ne_some.mpr fun p hp => ha ?_)⟩
      obtain ⟨o, ho, rfl, -⟩ := Hierarchy.exists_of_parentOf hp
      exact List.mem_map_of_mem ho

/-- The department and the second faculty are selected; then the first faculty, in place of its
department. -/
theorem targets_antichain_university : ∃ s, s = [4, 2] ∧ s.Nodup
    ∧ checked university 4 s ⟨3, some 2, 1, .active⟩ = some true := by
  obtain ⟨s, hs, hp⟩ := Machine.exists_reachable (M := machine university 4)
    (p := fun s => decide (s = [4, 2])) (s := [])
    [.organization ⟨3, some 2, 1, .active⟩, .organization ⟨4, some 1, 1, .active⟩,
      .organization ⟨2, some 1, 1, .active⟩] (.inl rfl) (by decide)
  obtain rfl := of_decide_eq_true hp
  exact ⟨_, rfl, (targets_antichain university_tree (by decide) hs).1, by decide⟩

end ResourceHive.Organizations.AllocatePointsDialog
