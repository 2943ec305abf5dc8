import Mathlib.Data.List.Basic
import Mathlib.Logic.Relation

/-!
# Machinery/Closure — everything below a set of nodes, by sweeping a table of parents

A table lists nodes with their parents, in no particular order.  A **sweep** goes through it once and
adds each node whose parent is already in the set, those added earlier in the same sweep included;
sweeps repeat until one adds nothing.  The set is a list in insertion order.  Nothing is assumed of
the table: a node may be listed twice, or lie on a cycle.
-/

namespace Closure

variable {α : Type*} [DecidableEq α]

/-- `b` is listed with parent `a`. -/
def Below (rows : List (α × Option α)) (a b : α) : Prop := (b, some a) ∈ rows

/-- Adding to a set. -/
def add (S : List α) (x : α) : List α := if x ∈ S then S else S ++ [x]

@[simp] theorem mem_add {S : List α} {x y : α} : y ∈ add S x ↔ y ∈ S ∨ y = x := by
  unfold add
  split
  · exact ⟨.inl, fun h => h.elim id fun hyx => hyx ▸ ‹_›⟩
  · simp

theorem mem_foldl_add {S l : List α} {y : α} : y ∈ l.foldl add S ↔ y ∈ S ∨ y ∈ l := by
  induction l generalizing S with
  | nil => simp
  | cons x l ih => rw [List.foldl_cons, ih, mem_add, List.mem_cons, or_assoc]

theorem nodup_foldl_add {S l : List α} (h : S.Nodup) : (l.foldl add S).Nodup := by
  induction l generalizing S with
  | nil => exact h
  | cons x l ih =>
    refine ih ?_
    unfold add
    split
    · exact h
    · next hx => exact List.nodup_append.mpr ⟨h, by simp, fun a ha b hb hab =>
        hx (List.mem_singleton.mp hb ▸ hab ▸ ha)⟩

/-- The parent is in the set and the node is not. -/
def pending (S : List α) (r : α × Option α) : Bool := r.2.any (· ∈ S) && decide (r.1 ∉ S)

/-- **One sweep**, and whether it added anything. -/
def sweep : List (α × Option α) → List α → List α × Bool
  | [], S => (S, false)
  | r :: rows, S => if pending S r then ((sweep rows (S ++ [r.1])).1, true) else sweep rows S

/-- Sweeps until one adds nothing. -/
def close (rows : List (α × Option α)) : ℕ → List α → List α
  | 0, S => S
  | fuel + 1, S => if (sweep rows S).2 then close rows fuel (sweep rows S).1 else S

/-- **The closure**: one sweep for each row, and one more to see that nothing is left. -/
def closure (rows : List (α × Option α)) (S : List α) : List α := close rows (rows.length + 1) S

/-! ## One sweep -/

theorem subset_sweep (rows : List (α × Option α)) (S : List α) : S ⊆ (sweep rows S).1 := by
  induction rows generalizing S with
  | nil => exact List.Subset.refl S
  | cons r rows ih =>
    unfold sweep
    split
    · exact List.Subset.trans (List.subset_append_left S [r.1]) (ih _)
    · exact ih S

theorem pending_iff {S : List α} {r : α × Option α} :
    pending S r = true ↔ (∃ a ∈ S, r.2 = some a) ∧ r.1 ∉ S := by
  obtain ⟨b, p⟩ := r
  cases p <;> simp [pending]

/-- What a sweep adds is below what was there. -/
theorem mem_sweep {rows all : List (α × Option α)} (hsub : rows ⊆ all) {S : List α} {x : α}
    (hx : x ∈ (sweep rows S).1) : ∃ t ∈ S, Relation.ReflTransGen (Below all) t x := by
  induction rows generalizing S with
  | nil => exact ⟨x, hx, .refl⟩
  | cons r rows ih =>
    have hrest : rows ⊆ all := List.Subset.trans (List.subset_cons_self r rows) hsub
    unfold sweep at hx
    split at hx
    · rename_i hp
      obtain ⟨⟨a, ha, hpar⟩, -⟩ := pending_iff.mp hp
      obtain ⟨t, ht, hpath⟩ := ih hrest hx
      rcases List.mem_append.mp ht with ht | ht
      · exact ⟨t, ht, hpath⟩
      · -- the node just added: one edge from its parent, which was there
        obtain rfl := List.mem_singleton.mp ht
        have hedge : Below all a r.1 := by
          have hr : r ∈ all := hsub List.mem_cons_self
          rwa [Below, ← hpar]
        exact ⟨a, ha, .head hedge hpath⟩
    · exact ih hrest hx

/-- A sweep that adds nothing leaves the set as it is, with no row pending. -/
theorem sweep_fixed {rows : List (α × Option α)} {S : List α} (h : (sweep rows S).2 = false) :
    (sweep rows S).1 = S ∧ ∀ r ∈ rows, pending S r = false := by
  induction rows with
  | nil => exact ⟨rfl, by simp⟩
  | cons r rows ih =>
    unfold sweep at h ⊢
    split at h
    · cases h
    · rename_i hp
      obtain ⟨heq, hall⟩ := ih h
      refine ⟨by rw [if_neg hp, heq], fun q hq => ?_⟩
      rcases List.mem_cons.mp hq with rfl | hq
      · exact Bool.eq_false_iff.mpr hp
      · exact hall q hq

/-- A sweep that adds something adds the node of a row. -/
theorem sweep_adds {rows : List (α × Option α)} {S : List α} (h : (sweep rows S).2 = true) :
    ∃ r ∈ rows, r.1 ∉ S ∧ r.1 ∈ (sweep rows S).1 := by
  induction rows with
  | nil => cases h
  | cons r rows ih =>
    unfold sweep at h ⊢
    split at h
    · rename_i hp
      refine ⟨r, List.mem_cons_self, (pending_iff.mp hp).2, ?_⟩
      rw [if_pos hp]
      exact subset_sweep rows _ (by simp)
    · rename_i hp
      obtain ⟨q, hq, hnot, hin⟩ := ih h
      refine ⟨q, List.mem_cons_of_mem r hq, hnot, ?_⟩
      rwa [if_neg hp]

/-! ## Sweeps until nothing is left

The measure is the number of rows whose node is still missing. -/

/-- The rows whose node is not in the set. -/
def missing (rows : List (α × Option α)) (S : List α) : List (α × Option α) :=
  rows.filter fun r => decide (r.1 ∉ S)

theorem missing_lt {rows : List (α × Option α)} {S : List α} (h : (sweep rows S).2 = true) :
    (missing rows (sweep rows S).1).length < (missing rows S).length := by
  obtain ⟨r, hr, hnot, hin⟩ := sweep_adds h
  have hfilter : missing rows (sweep rows S).1 =
      (missing rows S).filter fun r => decide (r.1 ∉ (sweep rows S).1) := by
    rw [missing, missing, List.filter_filter]
    refine List.filter_congr fun q _ => ?_
    have hsub := @subset_sweep _ _ rows S q.1
    by_cases hq : q.1 ∈ S <;> simp [hq, hsub]
  rw [hfilter, List.length_filter_lt_length_iff_exists]
  exact ⟨r, List.mem_filter.mpr ⟨hr, by simpa using hnot⟩, by simpa using hin⟩

theorem subset_close (rows : List (α × Option α)) (fuel : ℕ) (S : List α) :
    S ⊆ close rows fuel S := by
  induction fuel generalizing S with
  | zero => exact List.Subset.refl S
  | succ fuel ih =>
    unfold close
    split
    · exact List.Subset.trans (subset_sweep rows S) (ih _)
    · exact List.Subset.refl S

theorem mem_close {rows : List (α × Option α)} {fuel : ℕ} {S : List α} {x : α}
    (hx : x ∈ close rows fuel S) : ∃ t ∈ S, Relation.ReflTransGen (Below rows) t x := by
  induction fuel generalizing S with
  | zero => exact ⟨x, hx, .refl⟩
  | succ fuel ih =>
    unfold close at hx
    split at hx
    · obtain ⟨u, hu, hux⟩ := ih hx
      obtain ⟨t, ht, htu⟩ := mem_sweep (List.Subset.refl rows) hu
      exact ⟨t, ht, htu.trans hux⟩
    · exact ⟨x, hx, .refl⟩

/-- With enough fuel the last sweep added nothing. -/
theorem close_fixed {rows : List (α × Option α)} {fuel : ℕ} {S : List α}
    (h : (missing rows S).length < fuel) : ∀ r ∈ rows, pending (close rows fuel S) r = false := by
  induction fuel generalizing S with
  | zero => omega
  | succ fuel ih =>
    unfold close
    split
    · rename_i hadded
      have hlt := missing_lt hadded
      exact ih (by omega)
    · rename_i hnone
      exact (sweep_fixed (Bool.eq_false_iff.mpr hnone)).2

/-- A set without pending rows contains everything below its members. -/
theorem mem_of_below {rows : List (α × Option α)} {S : List α}
    (h : ∀ r ∈ rows, pending S r = false) {t x : α} (ht : t ∈ S)
    (hpath : Relation.ReflTransGen (Below rows) t x) : x ∈ S := by
  induction hpath with
  | refl => exact ht
  | tail _ hedge ih =>
    by_contra hx
    exact Bool.eq_false_iff.mp (h _ hedge) (pending_iff.mpr ⟨⟨_, ih, rfl⟩, hx⟩)

/-- **The closure is what lies below the set.** -/
theorem mem_closure {rows : List (α × Option α)} {S : List α} {x : α} :
    x ∈ closure rows S ↔ ∃ t ∈ S, Relation.ReflTransGen (Below rows) t x := by
  refine ⟨mem_close, fun ⟨t, ht, hpath⟩ => ?_⟩
  have hfuel : (missing rows S).length < rows.length + 1 :=
    Nat.lt_succ_of_le (List.length_filter_le _ rows)
  exact mem_of_below (close_fixed hfuel) (subset_close rows _ S ht) hpath

/-- **The sweeps end by themselves**: one more adds nothing. -/
theorem sweep_closure (rows : List (α × Option α)) (S : List α) :
    sweep rows (closure rows S) = (closure rows S, false) := by
  have hfuel : (missing rows S).length < rows.length + 1 :=
    Nat.lt_succ_of_le (List.length_filter_le _ rows)
  have hnone : (sweep rows (closure rows S)).2 = false := by
    refine Bool.eq_false_iff.mpr fun hadded => ?_
    obtain ⟨r, hr, hnot, hin⟩ := sweep_adds hadded
    obtain ⟨t, ht, hpath⟩ := mem_sweep (List.Subset.refl rows) hin
    exact hnot (mem_of_below (close_fixed hfuel) ht hpath)
  exact Prod.ext (sweep_fixed hnone).1 hnone

/-- What lies below the closure is in it. -/
theorem mem_closure_of_below {rows : List (α × Option α)} {S : List α} {s x : α}
    (hs : s ∈ closure rows S) (hpath : Relation.ReflTransGen (Below rows) s x) :
    x ∈ closure rows S := by
  obtain ⟨t, ht, hts⟩ := mem_closure.mp hs
  exact mem_closure.mpr ⟨t, ht, hts.trans hpath⟩

/-- Adding one node to a set that contains what lies below it, and closing again. -/
theorem mem_closure_add {rows : List (α × Option α)} {S : List α} {t x : α}
    (hS : ∀ s ∈ S, Relation.ReflTransGen (Below rows) s x → x ∈ S) :
    x ∈ closure rows (add S t) ↔ x ∈ S ∨ Relation.ReflTransGen (Below rows) t x := by
  simp only [mem_closure, mem_add]
  constructor
  · rintro ⟨s, hs | rfl, hpath⟩
    · exact .inl (hS s hs hpath)
    · exact .inr hpath
  · rintro (hx | hpath)
    · exact ⟨x, .inl hx, .refl⟩
    · exact ⟨t, .inr rfl, hpath⟩

end Closure
