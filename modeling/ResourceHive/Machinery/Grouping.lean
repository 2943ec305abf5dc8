import Mathlib.Algebra.BigOperators.Group.List.Basic
import Mathlib.Algebra.BigOperators.Group.Multiset.Basic
import Mathlib.Algebra.GroupWithZero.Nat
import Mathlib.Algebra.Order.Group.Nat
import Mathlib.Data.List.Dedup
import ResourceHive.Machinery.Table

/-!
# Machinery/Grouping — queries that join rows and group them

Lists of rows, with what a query does to them: a join (`join`), a left join (`leftJoin`) and a
grouping with an aggregate for each group (`groupBy`).

Grouping neither loses rows nor counts them twice, so sums over the groups add up to the sum over the
rows (`sum_group`).  A join with the rows that a foreign key refers to keeps each row once
(`map_fst_join`); a sum over a join is one over all pairs, in either order (`sum_join`, `sum_comm`).
-/

namespace Grouping

variable {α β γ κ M : Type*}

/-! ## Groups -/

section Groups

variable [DecidableEq κ] {key : α → κ} {l : List α} {k : κ}

/-- The rows of a group. -/
def group (key : α → κ) (l : List α) (k : κ) : List α := l.filter fun a => decide (key a = k)

/-- The keys of the groups there are. -/
def keys (key : α → κ) (l : List α) : List κ := (l.map key).dedup

/-- **`GROUP BY`**, with an aggregate. -/
def groupBy (key : α → κ) (aggregate : κ → List α → γ) (l : List α) : List γ :=
  (keys key l).map fun k => aggregate k (group key l k)

theorem mem_keys : k ∈ keys key l ↔ ∃ a ∈ l, key a = k := by
  rw [keys, List.mem_dedup, List.mem_map]

theorem nodup_keys (key : α → κ) (l : List α) : (keys key l).Nodup := List.nodup_dedup _

theorem mem_group {a : α} : a ∈ group key l k ↔ a ∈ l ∧ key a = k := by
  rw [group, List.mem_filter, decide_eq_true_eq]

theorem group_eq_nil (h : k ∉ keys key l) : group key l k = [] := by
  refine List.filter_eq_nil_iff.mpr fun a ha heq => h ?_
  exact mem_keys.mpr ⟨a, ha, of_decide_eq_true heq⟩

/-- Each group is under its key. -/
theorem map_groupBy {aggregate : κ → List α → γ} {name : γ → κ}
    (hname : ∀ k g, name (aggregate k g) = k) : (groupBy key aggregate l).map name = keys key l := by
  rw [groupBy, List.map_map]
  refine (List.map_congr_left fun k _ => ?_).trans (List.map_id _)
  exact hname k _

/-- A look-up among the groups. -/
theorem find?_groupBy {aggregate : κ → List α → γ} {p : γ → Bool}
    (hp : ∀ k' g, p (aggregate k' g) = decide (k' = k)) :
    (groupBy key aggregate l).find? p
      = if k ∈ keys key l then some (aggregate k (group key l k)) else none := by
  rw [groupBy, List.find?_map]
  have hcomp : (p ∘ fun k' => aggregate k' (group key l k')) = fun k' => decide (k' = k) :=
    funext fun k' => hp k' _
  rw [hcomp]
  split
  · next hk =>
    obtain ⟨x, hx⟩ : ∃ x, (keys key l).find? (fun k' => decide (k' = k)) = some x :=
      Option.isSome_iff_exists.mp (List.find?_isSome.mpr ⟨k, hk, decide_eq_true rfl⟩)
    have hxk : x = k := by simpa using List.find?_some hx
    rw [hx, hxk]
    rfl
  · next hk =>
    rw [List.find?_eq_none.mpr]
    · rfl
    · intro k' hk' heq
      exact hk (of_decide_eq_true heq ▸ hk')

/-- What a look-up among the groups finds for a key, or what there is of no rows. -/
theorem getD_find?_groupBy {n : List α → γ} :
    (((groupBy key (fun k g => (k, n g)) l).find? fun x => decide (x.1 = k)).map (·.2)).getD (n [])
      = n (group key l k) := by
  rw [find?_groupBy fun _ _ => rfl]
  split
  · rfl
  · next hk => rw [group_eq_nil hk]; rfl

/-- **Sums over the groups add up**, over any keys that are all the rows'. -/
theorem sum_group [AddCommMonoid M] {ks : List κ} (hks : ks.Nodup) (f : α → M)
    (hmem : ∀ a ∈ l, key a ∈ ks) :
    (ks.map fun k => ((group key l k).map f).sum).sum = (l.map f).sum := by
  induction l with
  | nil => simp [group]
  | cons a l ih =>
    have hsplit : ∀ k, ((group key (a :: l) k).map f).sum
        = (if key a = k then f a else 0) + ((group key l k).map f).sum := by
      intro k
      by_cases hk : key a = k <;> simp [group, hk]
    simp only [hsplit]
    rw [List.sum_map_add, ih fun b hb => hmem b (.tail a hb), List.map_cons, List.sum_cons]
    congr 1
    have hone := hmem a List.mem_cons_self
    clear hsplit ih hmem
    induction ks with
    | nil => cases hone
    | cons k ks ihk =>
      obtain ⟨hk, hks⟩ := List.nodup_cons.mp hks
      rw [List.map_cons, List.sum_cons]
      by_cases hak : key a = k
      · have hzero : (ks.map fun k' => if key a = k' then f a else 0).sum = 0 := by
          refine List.sum_eq_zero fun x hx => ?_
          obtain ⟨k', hk', rfl⟩ := List.mem_map.mp hx
          rw [if_neg]
          rintro rfl
          exact hk (hak ▸ hk')
        rw [if_pos hak, hzero, add_zero]
      · rw [if_neg hak, zero_add]
        exact ihk hks ((List.mem_cons.mp hone).resolve_left hak)

/-- **What is summed up for each group adds up to the sum over all rows.** -/
theorem sum_groupBy [AddCommMonoid M] {aggregate : κ → List α → γ} {f : γ → M} {w : α → M}
    (h : ∀ k, f (aggregate k (group key l k)) = ((group key l k).map w).sum) :
    ((groupBy key aggregate l).map f).sum = (l.map w).sum := by
  rw [groupBy, List.map_map, ← sum_group (nodup_keys key l) w fun a ha => mem_keys.mpr ⟨a, ha, rfl⟩]
  exact congrArg List.sum (List.map_congr_left fun k _ => h k)

theorem sum_ones (l : List α) : (l.map fun _ => 1).sum = l.length := by
  rw [List.map_const', List.sum_replicate_nat, Nat.mul_one]

/-- **The counts of the groups add up to the number of rows.** -/
theorem sum_length_groupBy {aggregate : κ → List α → γ} {f : γ → ℕ}
    (h : ∀ k g, f (aggregate k g) = g.length) :
    ((groupBy key aggregate l).map f).sum = l.length := by
  have hsum := sum_groupBy (l := l) (w := fun _ => 1) fun k =>
    (h k (group key l k)).trans (sum_ones _).symm
  rw [hsum, sum_ones]

end Groups

/-! ## Joins -/

/-- **`JOIN … ON`.** -/
def join (on : α → β → Bool) (l : List α) (rows : List β) : List (α × β) :=
  l.flatMap fun a => (rows.filter (on a)).map (a, ·)

/-- **`LEFT JOIN … ON`.** -/
def leftJoin (on : α → β → Bool) (l : List α) (rows : List β) : List (α × Option β) :=
  l.flatMap fun a =>
    match rows.filter (on a) with
    | [] => [(a, none)]
    | matched => matched.map (a, some ·)

variable {on : α → β → Bool} {l : List α} {rows : List β}

theorem join_cons (a : α) :
    join on (a :: l) rows = (rows.filter (on a)).map (a, ·) ++ join on l rows := rfl

theorem mem_join {a : α} {b : β} : (a, b) ∈ join on l rows ↔ a ∈ l ∧ b ∈ rows ∧ on a b = true := by
  simp only [join, List.mem_flatMap, List.mem_map, List.mem_filter, Prod.mk.injEq]
  constructor
  · rintro ⟨a', ha, b', hb, rfl, rfl⟩
    exact ⟨ha, hb⟩
  · rintro ⟨ha, hb⟩
    exact ⟨a, ha, b, hb, rfl, rfl⟩

/-- A `WHERE` on the rows a join starts from. -/
theorem filter_join (c : α → Bool) :
    (join on l rows).filter (fun p => c p.1) = join on (l.filter c) rows := by
  induction l with
  | nil => rfl
  | cons a l ih =>
    have hfst : ∀ p ∈ (rows.filter (on a)).map (a, ·), c p.1 = c a := by
      intro p hp
      obtain ⟨_, -, rfl⟩ := List.mem_map.mp hp
      rfl
    rw [join_cons, List.filter_append, ih, List.filter_congr hfst]
    by_cases ha : c a
    · rw [List.filter_cons_of_pos ha, join_cons, List.filter_eq_self.mpr fun _ _ => ha]
    · rw [List.filter_cons_of_neg ha, List.filter_eq_nil_iff.mpr fun _ _ => ha, List.nil_append]

theorem length_join : (join on l rows).length = (l.map fun a => (rows.filter (on a)).length).sum := by
  rw [join, List.length_flatMap]
  simp only [List.length_map]

/-- A join has each pair of keys once. -/
theorem nodup_join {ka : α → κ} {kb : β → γ} (hl : (l.map ka).Nodup)
    (hrows : ∀ a ∈ l, ((rows.filter (on a)).map kb).Nodup) :
    ((join on l rows).map fun p => (ka p.1, kb p.2)).Nodup := by
  have hmap : ((join on l rows).map fun p => (ka p.1, kb p.2))
      = l.flatMap fun a => ((rows.filter (on a)).map kb).map (ka a, ·) := by
    rw [join, List.map_flatMap]
    simp only [List.map_map, Function.comp_def]
  rw [hmap, List.nodup_flatMap]
  constructor
  · intro a ha
    exact (hrows a ha).map fun _ _ heq => (Prod.mk.inj heq).2
  · refine (List.pairwise_map.mp hl).imp fun hne => List.disjoint_left.mpr fun x hx hx' => ?_
    obtain ⟨_, -, rfl⟩ := List.mem_map.mp hx
    obtain ⟨_, -, heq⟩ := List.mem_map.mp hx'
    exact hne (Prod.mk.inj heq).1.symm

/-- **A join along a foreign key** keeps each row, once. -/
theorem map_fst_join [DecidableEq κ] {pk : β → κ} {fk : α → κ} (hpk : (rows.map pk).Nodup)
    (hfk : ∀ a ∈ l, fk a ∈ rows.map pk) :
    (join (fun a b => decide (pk b = fk a)) l rows).map Prod.fst = l := by
  have hone : ∀ a ∈ l, (rows.filter fun b => decide (pk b = fk a)).length = 1 := by
    intro a ha
    have hcount := List.count_eq_one_of_mem hpk (hfk a ha)
    rw [List.count, List.countP_map, List.countP_eq_length_filter] at hcount
    exact hcount
  rw [join, List.map_flatMap]
  refine (List.flatMap_congr (g := fun a => [a]) fun a ha => ?_).trans (List.flatMap_singleton' l)
  obtain ⟨b, hb⟩ := List.length_eq_one_iff.mp (hone a ha)
  rw [hb]
  rfl

/-- A left join with rows under a unique key has each row once, with the one it finds. -/
theorem leftJoin_eq_map [DecidableEq κ] {pk : β → κ} {fk : α → κ} (hpk : (rows.map pk).Nodup) :
    leftJoin (fun a b => decide (pk b = fk a)) l rows
      = l.map fun a => (a, rows.find? fun b => decide (pk b = fk a)) := by
  rw [leftJoin, List.map_eq_flatMap]
  refine List.flatMap_congr fun a _ => ?_
  have hfind : (rows.filter fun b => decide (pk b = fk a)).head?
      = rows.find? fun b => decide (pk b = fk a) := List.head?_filter
  rcases Table.Unique.filter_eq hpk (fk a) with hnil | ⟨b, -, -, hone⟩
  · rw [← hfind, hnil]
    rfl
  · rw [← hfind, hone]
    rfl

/-! ## Sums over joins -/

section Sums

variable [AddCommMonoid M]

/-- A sum over the rows of a `WHERE`. -/
theorem sum_filter (p : α → Bool) (f : α → M) (l : List α) :
    ((l.filter p).map f).sum = (l.map fun a => if p a then f a else 0).sum := by
  induction l with
  | nil => rfl
  | cons a l ih => by_cases ha : p a <;> simp [ha, ih]

theorem length_filter (p : α → Bool) (l : List α) :
    (l.filter p).length = (l.map fun a => if p a then 1 else 0).sum := by
  rw [← sum_filter, sum_ones]

/-- **A sum over a join** is one over all pairs. -/
theorem sum_join (f : α × β → M) : ((join on l rows).map f).sum
    = (l.map fun a => (rows.map fun b => if on a b then f (a, b) else 0).sum).sum := by
  induction l with
  | nil => rfl
  | cons a l ih =>
    rw [join_cons, List.map_append, List.sum_append, ih, List.map_cons, List.sum_cons,
      List.map_map, ← sum_filter]
    rfl

/-- A sum over a left join to which the rows without a match add nothing. -/
theorem sum_leftJoin {f : α × Option β → M} (hf : ∀ a, f (a, none) = 0) :
    ((leftJoin on l rows).map f).sum = ((join on l rows).map fun p => f (p.1, some p.2)).sum := by
  induction l with
  | nil => rfl
  | cons a l ih =>
    rw [leftJoin] at ih ⊢
    rw [List.flatMap_cons, List.map_append, List.sum_append, ih, join_cons, List.map_append,
      List.sum_append]
    congr 1
    split
    · next h => simp [h, hf]
    · rw [List.map_map, List.map_map]
      rfl

/-- **A join has the same pairs from either side.** -/
theorem sum_comm (l : List α) (rows : List β) (f : α → β → M) :
    (l.map fun a => (rows.map fun b => f a b).sum).sum
      = (rows.map fun b => (l.map fun a => f a b).sum).sum := by
  simpa using Multiset.sum_map_sum_map (l : Multiset α) (rows : Multiset β) (f := f)

end Sums

end Grouping
