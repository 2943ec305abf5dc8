import Mathlib.Data.List.Nodup
import Mathlib.Data.List.Perm.Subperm
import Mathlib.Logic.Function.Basic
import Mathlib.Logic.Relation

/-!
# Machinery/Ancestry — chains of parents, and the loops that climb them

Nodes have at most one parent each.  A node's **chain** is the list of what lies above it, itself
first, and there need not be one: parents may form a cycle.  Where there is one it is the only one
and repeats nothing, so a loop that climbs from parent to parent ends within as many rounds as there
are nodes, and does what the same loop does on the list (`climb_eq`).
-/

namespace Ancestry

variable {α β σ : Type*} {parent parent' : α → Option α} {a b : α} {l l' : List α}

/-- `b` is the parent of `a`. -/
def Up (parent : α → Option α) (a b : α) : Prop := parent a = some b

/-- **A chain of parents**: from a node up to one that has no parent. -/
inductive Chain (parent : α → Option α) : α → List α → Prop
  | top {a : α} (h : parent a = none) : Chain parent a [a]
  | up {a b : α} {l : List α} (h : parent a = some b) (hl : Chain parent b l) :
      Chain parent a (a :: l)

/-- **Every node has a chain.** -/
def Grounded (parent : α → Option α) : Prop := ∀ a, ∃ l, Chain parent a l

/-! ## What a chain contains -/

theorem Chain.exists_cons (h : Chain parent a l) : ∃ t, l = a :: t := by
  cases h with
  | top => exact ⟨[], rfl⟩
  | up => exact ⟨_, rfl⟩

theorem Chain.unique (h : Chain parent a l) (h' : Chain parent a l') : l = l' := by
  induction h generalizing l' with
  | top hnone =>
    cases h' with
    | top => rfl
    | up hsome => simp [hnone] at hsome
  | up hsome _ ih =>
    cases h' with
    | top hnone => simp [hnone] at hsome
    | up hsome' hl' =>
      obtain rfl := Option.some.inj (hsome.symm.trans hsome')
      rw [ih hl']

/-- What is on a chain has the rest of it as its own. -/
theorem Chain.of_mem (h : Chain parent a l) (hb : b ∈ l) : ∃ l', Chain parent b l' ∧ l' <:+ l := by
  induction h with
  | top hnone =>
    obtain rfl := List.mem_singleton.mp hb
    exact ⟨_, .top hnone, List.suffix_refl _⟩
  | up hsome hl ih =>
    rcases List.mem_cons.mp hb with rfl | hb
    · exact ⟨_, .up hsome hl, List.suffix_refl _⟩
    · obtain ⟨l', hl', hsuffix⟩ := ih hb
      exact ⟨l', hl', hsuffix.trans (List.suffix_cons _ _)⟩

/-- **A chain is what can be reached by going up.** -/
theorem Chain.mem_iff (h : Chain parent a l) : b ∈ l ↔ Relation.ReflTransGen (Up parent) a b := by
  induction h with
  | @top a hnone =>
    rw [List.mem_singleton]
    constructor
    · rintro rfl
      exact .refl
    · intro hpath
      rcases hpath.cases_head with heq | ⟨c, hup, -⟩
      · exact heq.symm
      · cases hnone.symm.trans hup
  | @up a c l hsome _ ih =>
    rw [List.mem_cons, ih]
    constructor
    · rintro (rfl | hpath)
      · exact .refl
      · exact .head hsome hpath
    · intro hpath
      rcases hpath.cases_head with heq | ⟨d, hup, hrest⟩
      · exact .inl heq.symm
      · obtain rfl := Option.some.inj (hsome.symm.trans hup)
        exact .inr hrest

/-- Nothing is on its own chain twice: the rest of the chain from there would be the whole. -/
theorem Chain.nodup (h : Chain parent a l) : l.Nodup := by
  induction h with
  | top => exact List.nodup_singleton _
  | @up a b l hsome hl ih =>
    refine List.nodup_cons.mpr ⟨fun hmem => ?_, ih⟩
    obtain ⟨l', hl', hsuffix⟩ := hl.of_mem hmem
    have heq : l' = a :: l := hl'.unique (.up hsome hl)
    have hlength := hsuffix.length_le
    rw [heq, List.length_cons] at hlength
    omega

theorem Chain.length_le {nodes : List α} (h : Chain parent a l) (hsub : l ⊆ nodes) :
    l.length ≤ nodes.length :=
  (List.subperm_of_subset h.nodup hsub).length_le

/-- Where all parents are among `nodes`, so is what is above a node. -/
theorem Chain.subset_cons {nodes : List α} (h : Chain parent a l)
    (hup : ∀ b c, parent b = some c → c ∈ nodes) : l ⊆ a :: nodes := by
  induction h with
  | @top a _ => exact List.cons_subset_cons a (List.nil_subset nodes)
  | @up a b l hsome _ ih =>
    refine List.cons_subset.mpr ⟨List.mem_cons_self .., fun c hc => List.mem_cons_of_mem _ ?_⟩
    rcases List.mem_cons.mp (ih hc) with rfl | hc
    · exact hup a c hsome
    · exact hc

/-! ## Other parents -/

/-- A chain depends on the parents of its own nodes only. -/
theorem Chain.congr (h : Chain parent a l) (hsame : ∀ b ∈ l, parent' b = parent b) :
    Chain parent' a l := by
  induction h with
  | top hnone => exact .top ((hsame _ (List.mem_singleton_self _)).trans hnone)
  | up hsome _ ih =>
    exact .up ((hsame _ (List.mem_cons_self ..)).trans hsome)
      (ih fun b hb => hsame b (List.mem_cons_of_mem _ hb))

/-- **Moving a node below one that is not below it** leaves every node a chain. -/
theorem Grounded.update (h : Grounded parent) {x : α}
    (hother : ∀ a, a ≠ x → parent' a = parent a)
    (hx : ∀ b, parent' x = some b → ¬ Relation.ReflTransGen (Up parent) b x) :
    Grounded parent' := by
  have hmoved : ∃ l, Chain parent' x l := by
    cases hp : parent' x with
    | none => exact ⟨[x], .top hp⟩
    | some b =>
      obtain ⟨l, hl⟩ := h b
      have hnot : x ∉ l := fun hmem => hx b hp (hl.mem_iff.mp hmem)
      exact ⟨x :: l, .up hp (hl.congr fun c hc => hother c (ne_of_mem_of_not_mem hc hnot))⟩
  intro a
  obtain ⟨l, hl⟩ := h a
  -- up to the node that moved, if it is on the chain at all, nothing has changed
  induction hl with
  | @top a hnone =>
    by_cases hax : a = x
    · exact hax ▸ hmoved
    · exact ⟨[a], .top ((hother a hax).trans hnone)⟩
  | @up a b l hsome _ ih =>
    by_cases hax : a = x
    · exact hax ▸ hmoved
    · obtain ⟨l', hl'⟩ := ih
      exact ⟨a :: l', .up ((hother a hax).trans hsome) hl'⟩

/-! ## Loops -/

/-- How a round of a loop ends. -/
inductive Round (α β σ : Type*)
  | done (result : β)
  | next (state : σ) (node : Option α)

/-- **A loop**, from a node if there is one, for at most `fuel` rounds; `none` if it has not ended by
then. -/
def climb (visit : σ → α → Round α β σ) (ended : σ → β) : ℕ → σ → Option α → Option β
  | _, s, none => some (ended s)
  | 0, _, some _ => none
  | fuel + 1, s, some a =>
    match visit s a with
    | .done result => some result
    | .next s' node => climb visit ended fuel s' node

/-- The same loop over the nodes of a list. -/
def along (visit : σ → α → Round α β σ) (ended : σ → β) : σ → List α → β
  | s, [] => ended s
  | s, a :: l =>
    match visit s a with
    | .done result => result
    | .next s' _ => along visit ended s' l

/-- A loop that goes on, goes on at the parent. -/
def Follows (parent : α → Option α) (visit : σ → α → Round α β σ) : Prop :=
  ∀ s a s' node, visit s a = .next s' node → node = parent a

variable {visit : σ → α → Round α β σ} {ended : σ → β} {fuel : ℕ}

/-- **A loop that climbs a chain ends**, and goes through the chain. -/
theorem climb_eq (hvisit : Follows parent visit) (h : Chain parent a l) (hfuel : l.length ≤ fuel)
    (s : σ) : climb visit ended fuel s (some a) = some (along visit ended s l) := by
  induction h generalizing fuel s with
  | @top a hnone =>
    obtain ⟨n, rfl⟩ : ∃ n, fuel = n + 1 := Nat.exists_eq_add_of_le' hfuel
    rw [climb, along]
    cases hround : visit s a with
    | done => rfl
    | next s' node =>
      rw [hvisit s a s' node hround, hnone]
      cases n <;> rfl
  | @up a b l hsome _ ih =>
    rw [List.length_cons] at hfuel
    obtain ⟨n, rfl⟩ : ∃ n, fuel = n + 1 := ⟨fuel - 1, by omega⟩
    rw [climb, along]
    cases hround : visit s a with
    | done => rfl
    | next s' node =>
      rw [hvisit s a s' node hround, hsome]
      exact ih (Nat.le_of_succ_le_succ hfuel) s'

/-- …and so does one that begins at the parent. -/
theorem climb_parent_eq (hvisit : Follows parent visit) (h : Chain parent a (a :: l))
    (hfuel : l.length ≤ fuel) (s : σ) :
    climb visit ended fuel s (parent a) = some (along visit ended s l) := by
  cases h with
  | top hnone =>
    rw [hnone]
    cases fuel <;> rfl
  | up hsome hl =>
    rw [hsome]
    exact climb_eq hvisit hl hfuel s

/-- **A loop over grounded nodes ends**, wherever it begins. -/
theorem climb_isSome {nodes : List α} (hvisit : Follows parent visit) (h : Grounded parent)
    (hup : ∀ b c, parent b = some c → c ∈ nodes) (hfuel : nodes.length < fuel) (s : σ)
    (start : Option α) : (climb visit ended fuel s start).isSome := by
  cases start with
  | none => cases fuel <;> rfl
  | some a =>
    obtain ⟨l, hl⟩ := h a
    have hlength : l.length ≤ nodes.length + 1 := hl.length_le (hl.subset_cons hup)
    rw [climb_eq hvisit hl (Nat.le_trans hlength hfuel)]
    rfl

/-! ## Looking for a node above -/

/-- **The loop that looks for a node** satisfying `p`. -/
def search (parent : α → Option α) (p : α → Bool) (_ : Unit) (a : α) : Round α Bool Unit :=
  if p a then .done true else .next () (parent a)

/-- …having found none. -/
def notFound (_ : Unit) : Bool := false

theorem follows_search (p : α → Bool) : Follows parent (search parent p) := by
  intro s a s' node h
  unfold search at h
  split at h
  · cases h
  · cases h
    rfl

theorem along_search (p : α → Bool) (l : List α) :
    along (search parent p) notFound () l = l.any p := by
  induction l with
  | nil => rfl
  | cons a l ih =>
    rw [along, List.any_cons, search]
    by_cases hp : p a
    · rw [if_pos hp, hp, Bool.true_or]
    · rw [if_neg hp, Bool.eq_false_iff.mpr hp, Bool.false_or, ← ih]

/-- What is strictly above a node: the chain of its parent. -/
theorem transGen_iff {c : α} : Relation.TransGen (Up parent) a c ↔
    ∃ b, parent a = some b ∧ Relation.ReflTransGen (Up parent) b c :=
  Relation.TransGen.head'_iff

/-- No node is above itself. -/
theorem Grounded.irrefl (h : Grounded parent) (a : α) : ¬ Relation.TransGen (Up parent) a a := by
  intro hloop
  obtain ⟨b, hup, hpath⟩ := transGen_iff.mp hloop
  obtain ⟨l, hl⟩ := h b
  have hnodup := (Chain.up hup hl).nodup
  exact (List.nodup_cons.mp hnodup).1 (hl.mem_iff.mpr hpath)

/-- Of two nodes above a third, one is above the other. -/
theorem comparable {x : α} (ha : Relation.ReflTransGen (Up parent) x a)
    (hb : Relation.ReflTransGen (Up parent) x b) :
    Relation.ReflTransGen (Up parent) a b ∨ Relation.ReflTransGen (Up parent) b a := by
  refine Relation.ReflTransGen.total_of_right_unique (fun y c d hc hd => ?_) ha hb
  exact Option.some.inj (hc.symm.trans hd)

/-- **Looking for a node strictly above another** ends, and finds one if there is one. -/
theorem climb_search {nodes : List α} (h : Grounded parent)
    (hup : ∀ b c, parent b = some c → c ∈ nodes) (hfuel : nodes.length ≤ fuel) (p : α → Bool)
    (a : α) : ∃ found, climb (search parent p) notFound fuel () (parent a) = some found ∧
      (found = true ↔ ∃ b, Relation.TransGen (Up parent) a b ∧ p b = true) := by
  obtain ⟨l, hl⟩ := h a
  obtain ⟨l, rfl⟩ := hl.exists_cons
  have hlength : (a :: l).length ≤ (a :: nodes).length := hl.length_le (hl.subset_cons hup)
  simp only [List.length_cons, Nat.add_le_add_iff_right] at hlength
  refine ⟨l.any p, ?_, ?_⟩
  · rw [climb_parent_eq (follows_search p) hl (Nat.le_trans hlength hfuel), along_search]
  · rw [List.any_eq_true]
    refine exists_congr fun b => and_congr_left fun _ => ?_
    have hnot : a ∉ l := (List.nodup_cons.mp hl.nodup).1
    have hmem := hl.mem_iff (b := b)
    rw [List.mem_cons, Relation.reflTransGen_iff_eq_or_transGen] at hmem
    constructor
    · intro hb
      exact (hmem.mp (.inr hb)).resolve_left fun heq => hnot (heq ▸ hb)
    · intro hpath
      exact (hmem.mpr (.inr hpath)).resolve_left fun heq => h.irrefl a (heq ▸ hpath)

/-! ## Nodes none of which is above another -/

/-- **An antichain**: no node of the list is there twice, or above another. -/
structure Antichain (parent : α → Option α) (S : List α) : Prop where
  nodup : S.Nodup
  above : ∀ a ∈ S, ∀ b ∈ S, ¬ Relation.TransGen (Up parent) a b

theorem Antichain.nil : Antichain parent [] := ⟨List.nodup_nil, by simp⟩

theorem Antichain.singleton (h : Grounded parent) (a : α) : Antichain parent [a] := by
  refine ⟨List.nodup_singleton a, fun b hb c hc hpath => ?_⟩
  obtain rfl := List.mem_singleton.mp hb
  obtain rfl := List.mem_singleton.mp hc
  exact h.irrefl _ hpath

theorem Antichain.sublist {S S' : List α} (h : Antichain parent S) (hsub : S'.Sublist S) :
    Antichain parent S' :=
  ⟨h.nodup.sublist hsub, fun a ha b hb => h.above a (hsub.subset ha) b (hsub.subset hb)⟩

/-- A node that is neither above nor below any other can be added. -/
theorem Antichain.concat {S : List α} (h : Antichain parent S) (hgrounded : Grounded parent)
    (hnot : a ∉ S) (hbelow : ∀ b ∈ S, ¬ Relation.TransGen (Up parent) b a)
    (habove : ∀ b ∈ S, ¬ Relation.TransGen (Up parent) a b) : Antichain parent (S ++ [a]) := by
  constructor
  · refine List.nodup_append.mpr ⟨h.nodup, List.nodup_singleton a, fun b hb c hc heq => ?_⟩
    exact hnot (List.mem_singleton.mp hc ▸ heq ▸ hb)
  · intro b hb c hc
    rw [List.mem_append, List.mem_singleton] at hb hc
    rcases hb with hb | rfl <;> rcases hc with hc | rfl
    · exact h.above b hb c hc
    · exact hbelow b hb
    · exact habove c hc
    · exact hgrounded.irrefl _

/-- **What lies at or below different nodes of an antichain is different.** -/
theorem Antichain.eq_of_below {S : List α} (h : Antichain parent S) {x : α} (ha : a ∈ S)
    (hb : b ∈ S) (hxa : Relation.ReflTransGen (Up parent) x a)
    (hxb : Relation.ReflTransGen (Up parent) x b) : a = b := by
  rcases comparable hxa hxb with hab | hba
  · rcases Relation.reflTransGen_iff_eq_or_transGen.mp hab with heq | hpath
    · exact heq.symm
    · exact absurd hpath (h.above a ha b hb)
  · rcases Relation.reflTransGen_iff_eq_or_transGen.mp hba with heq | hpath
    · exact heq
    · exact absurd hpath (h.above b hb a ha)

end Ancestry
