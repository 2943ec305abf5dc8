import Mathlib.Data.List.Basic

/-!
# Machinery/Rooms — who is in which room

A server that fans messages out keeps, for each room, the members that joined it.  `Rooms` is such a
store given by its laws alone: what each operation does to membership, and nothing about how it is
kept.  `Rooms.table` is one that keeps pairs.
-/

/-- **A store of rooms**: members `ι`, rooms named by `κ`, kept as a `σ`. -/
structure Rooms (σ ι κ : Type*) where
  empty : σ
  join : σ → ι → κ → σ
  leave : σ → ι → κ → σ
  leaveAll : σ → ι → σ
  members : σ → κ → List ι
  notMem_empty : ∀ k i, i ∉ members empty k
  mem_join : ∀ s i k j l, j ∈ members (join s i k) l ↔ (j = i ∧ l = k) ∨ j ∈ members s l
  mem_leave : ∀ s i k j l, j ∈ members (leave s i k) l ↔ ¬ (j = i ∧ l = k) ∧ j ∈ members s l
  mem_leaveAll : ∀ s i j l, j ∈ members (leaveAll s i) l ↔ j ≠ i ∧ j ∈ members s l

namespace Rooms

attribute [simp] notMem_empty mem_join mem_leave mem_leaveAll

/-- The store that keeps the pairs of a member and a room. -/
def table (ι κ : Type*) [DecidableEq ι] [DecidableEq κ] : Rooms (List (ι × κ)) ι κ where
  empty := []
  join s i k := if (i, k) ∈ s then s else (i, k) :: s
  leave s i k := s.filter fun p => !decide (p = (i, k))
  leaveAll s i := s.filter fun p => !decide (p.1 = i)
  members s k := (s.filter fun p => decide (p.2 = k)).map Prod.fst
  notMem_empty := by simp
  mem_join s i k j l := by
    by_cases h : (i, k) ∈ s
    · simp only [h, if_true, iff_or_self]
      rintro ⟨rfl, rfl⟩
      simpa using h
    · simp [h, eq_comm (a := l)]
  mem_leave s i k j l := by simp [and_comm]
  mem_leaveAll s i j l := by simp [and_comm]

end Rooms
