import Mathlib.Data.List.AList
import Mathlib.Order.Lattice

/-!
# Machinery/Cache — a cache whose entries expire

A cache maps keys to entries, each of which is found until a time of its own.  Everything is said
about what is found (`Cache.get`): a cache is **coherent** at a time with a relation of keys and
values if whatever is found then is in the relation, and what time, a new entry and a deletion do to
that is one lemma each.
-/

/-- A value, and the time from which on it is not found. -/
structure Expiring (ν τ : Type*) where
  value : ν
  expiresAt : τ

/-- **A cache.** -/
abbrev Cache (κ ν τ : Type*) := AList fun _ : κ => Expiring ν τ

namespace Cache

variable {κ ν τ : Type*} [DecidableEq κ] [LinearOrder τ]

/-- What is found under a key at a time. -/
def get (c : Cache κ ν τ) (now : τ) (k : κ) : Option ν :=
  ((c.lookup k).filter fun e => decide (now < e.expiresAt)).map (·.value)

def set (c : Cache κ ν τ) (k : κ) (v : ν) (expiresAt : τ) : Cache κ ν τ := c.insert k ⟨v, expiresAt⟩

def del (c : Cache κ ν τ) (k : κ) : Cache κ ν τ := c.erase k

variable {c : Cache κ ν τ} {now now' t : τ} {k k' : κ} {v : ν}

@[simp] theorem get_empty : get (∅ : Cache κ ν τ) now k = none := rfl

theorem get_eq_some :
    c.get now k = some v ↔ ∃ e, c.lookup k = some e ∧ now < e.expiresAt ∧ e.value = v := by
  simp only [get, Option.map_eq_some_iff, Option.filter_eq_some_iff, decide_eq_true_eq, and_assoc]

/-- What is found was found before, since it is there. -/
theorem get_of_le (h : now ≤ now') (hv : c.get now' k = some v) : c.get now k = some v := by
  obtain ⟨e, he, hlt, hval⟩ := get_eq_some.mp hv
  exact get_eq_some.mpr ⟨e, he, lt_of_le_of_lt h hlt, hval⟩

theorem get_set_self : (c.set k v t).get now k = if now < t then some v else none := by
  rw [get, set, AList.lookup_insert]
  by_cases h : now < t <;> simp [Option.filter, h]

theorem get_set_of_ne (h : k' ≠ k) : (c.set k v t).get now k' = c.get now k' := by
  rw [get, set, AList.lookup_insert_ne h, get]

theorem get_del_self : (c.del k).get now k = none := by
  rw [get, del, AList.lookup_erase]
  rfl

theorem get_del_of_ne (h : k' ≠ k) : (c.del k).get now k' = c.get now k' := by
  rw [get, del, AList.lookup_erase_ne h, get]

/-- What is found after a deletion was found before. -/
theorem get_of_del (h : (c.del k).get now k' = some v) : c.get now k' = some v := by
  by_cases hk : k' = k
  · rw [hk, get_del_self] at h
    cases h
  · rwa [get_del_of_ne hk] at h

theorem get_of_dels {ks : List κ} (h : (ks.foldl del c).get now k = some v) :
    c.get now k = some v := by
  induction ks generalizing c with
  | nil => exact h
  | cons k' ks ih => exact get_of_del (ih h)

/-- What is deleted is not found. -/
theorem get_dels_of_mem {ks : List κ} (h : k ∈ ks) : (ks.foldl del c).get now k = none := by
  induction ks generalizing c with
  | nil => cases h
  | cons k' ks ih =>
    rcases List.mem_cons.mp h with rfl | hk
    · cases hget : (List.foldl del c (k :: ks)).get now k with
      | none => rfl
      | some v =>
        have hdel : (c.del k).get now k = some v := get_of_dels hget
        rw [get_del_self] at hdel
        cases hdel
    · exact ih hk

/-! ## Coherence -/

/-- **Coherent**: whatever is found is in the relation. -/
def Coherent (R : κ → ν → Prop) (c : Cache κ ν τ) (now : τ) : Prop :=
  ∀ k v, c.get now k = some v → R k v

variable {R R' : κ → ν → Prop}

theorem Coherent.empty : Coherent R (∅ : Cache κ ν τ) now := fun k v h => by
  rw [get_empty] at h
  cases h

/-- Time only takes away what is found. -/
theorem Coherent.later (h : Coherent R c now) (hle : now ≤ now') : Coherent R c now' :=
  fun k v hv => h k v (get_of_le hle hv)

theorem Coherent.set (h : Coherent R c now) (hv : R k v) : Coherent R (c.set k v t) now := by
  intro k' v' hget
  by_cases hk : k' = k
  · rw [hk, get_set_self] at hget
    split at hget
    · obtain rfl := Option.some.inj hget
      exact hk ▸ hv
    · cases hget
  · rw [get_set_of_ne hk] at hget
    exact h k' v' hget

/-- From one relation to another, as far as something is found. -/
theorem Coherent.mono (h : Coherent R c now) (himp : ∀ k v, c.get now k = some v → R k v → R' k v) :
    Coherent R' c now :=
  fun k v hget => himp k v hget (h k v hget)

end Cache
