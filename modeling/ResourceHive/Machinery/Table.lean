import Mathlib.Data.List.Nodup
import Mathlib.Data.List.Perm.Subperm

/-!
# Machinery/Table — tables that cannot violate their constraints

A table is its rows together with the proof that they satisfy the declared constraints, so a
statement either yields a table of the same type or is rejected (`none`), and what a constraint
forbids is absent from every table there is.  Constraints are predicates of the whole list of rows:
a CHECK of each row (`Check`), a unique index (`Unique`), a partial unique index (`UniqueWhere`).
-/

/-- **A table**: rows, and the proof that the constraints `C` admit them. -/
structure Table (α : Type*) (C : List α → Prop) where
  rows : List α
  valid : C rows

namespace Table

variable {α β : Type*} {C : List α → Prop}

/-! ## Constraints -/

/-- Each row passes a CHECK. -/
def Check (P : α → Prop) (rows : List α) : Prop := ∀ r ∈ rows, P r

/-- No two rows share a key. -/
def Unique (key : α → β) (rows : List α) : Prop := (rows.map key).Nodup

/-- No two of the rows satisfying `p` share a key. -/
def UniqueWhere (p : α → Bool) (key : α → β) (rows : List α) : Prop := Unique key (rows.filter p)

instance (P : α → Prop) [DecidablePred P] : DecidablePred (Check P) :=
  fun rows => inferInstanceAs (Decidable (∀ r ∈ rows, P r))

instance (key : α → β) [DecidableEq β] : DecidablePred (Unique key) :=
  fun rows => inferInstanceAs (Decidable (rows.map key).Nodup)

instance (p : α → Bool) (key : α → β) [DecidableEq β] : DecidablePred (UniqueWhere p key) :=
  fun rows => inferInstanceAs (Decidable (Unique key (rows.filter p)))

theorem Unique.eq {key : α → β} {rows : List α} (h : Unique key rows) {r r' : α} (hr : r ∈ rows)
    (hr' : r' ∈ rows) (hk : key r = key r') : r = r' :=
  List.inj_on_of_nodup_map h hr hr' hk

/-- Looking for a row by a condition that fixes a unique key finds it. -/
theorem Unique.find?_eq_of {key : α → β} {rows : List α} (h : Unique key rows) {p : α → Bool} {r : α}
    (hr : r ∈ rows) (hp : p r) (hkey : ∀ x, p x → key x = key r) : rows.find? p = some r := by
  obtain ⟨x, hx⟩ : ∃ x, rows.find? p = some x :=
    Option.isSome_iff_exists.mp (List.find?_isSome.mpr ⟨r, hr, hp⟩)
  rw [hx, h.eq (List.mem_of_find?_eq_some hx) hr (hkey x (List.find?_some hx))]

/-- Looking for a row by a unique key finds it. -/
theorem Unique.find?_eq [DecidableEq β] {key : α → β} {rows : List α} (h : Unique key rows) {r : α}
    (hr : r ∈ rows) : rows.find? (fun x => decide (key x = key r)) = some r :=
  h.find?_eq_of hr (decide_eq_true rfl) fun _ => of_decide_eq_true

/-- Rows that are updated to pass a CHECK, and rows that are not updated. -/
theorem Check.update {P : α → Prop} {rows : List α} (h : Check P rows) {p : α → Bool} {f : α → α}
    (hf : ∀ r ∈ rows, p r → P (f r)) : Check P (rows.map fun r => if p r then f r else r) := by
  intro x hx
  obtain ⟨r, hr, rfl⟩ := List.mem_map.mp hx
  split
  · next hp => exact hf r hr hp
  · exact h r hr

theorem Unique.append {key : α → β} {rows : List α} {r : α} (h : Unique key rows)
    (hr : ∀ x ∈ rows, key x ≠ key r) : Unique key (rows ++ [r]) := by
  rw [Unique, List.map_append, List.nodup_append]
  refine ⟨h, List.nodup_singleton _, fun k hk k' hk' => ?_⟩
  obtain ⟨x, hx, rfl⟩ := List.mem_map.mp hk
  obtain rfl := List.mem_singleton.mp hk'
  exact hr x hx

theorem Unique.map {key : α → β} {rows : List α} (h : Unique key rows) {f : α → α}
    (hf : ∀ r, key (f r) = key r) : Unique key (rows.map f) := by
  rw [Unique, List.map_map, show key ∘ f = key from funext hf]
  exact h

theorem UniqueWhere.append {p : α → Bool} {key : α → β} {rows : List α} {r : α}
    (h : UniqueWhere p key rows) (hr : ∀ x ∈ rows, p x → p r → key x ≠ key r) :
    UniqueWhere p key (rows ++ [r]) := by
  rw [UniqueWhere, List.filter_append]
  by_cases hp : p r
  · rw [List.filter_cons_of_pos hp, List.filter_nil]
    exact Unique.append h fun x hx => hr x (List.mem_of_mem_filter hx) (List.of_mem_filter hx) hp
  · rwa [List.filter_cons_of_neg hp, List.filter_nil, List.append_nil]

/-- A row added under a unique key has a new one. -/
theorem Unique.ne_of_append {key : α → β} {rows : List α} {r x : α}
    (h : Unique key (rows ++ [r])) (hx : x ∈ rows) : key x ≠ key r := by
  rw [Unique, List.map_append, List.nodup_append] at h
  exact h.2.2 (key x) (List.mem_map_of_mem hx) (key r) (by simp)

theorem UniqueWhere.eq {p : α → Bool} {key : α → β} {rows : List α} (h : UniqueWhere p key rows)
    {r r' : α} (hr : r ∈ rows) (hp : p r) (hr' : r' ∈ rows) (hp' : p r') (hk : key r = key r') :
    r = r' :=
  Unique.eq h (List.mem_filter.mpr ⟨hr, hp⟩) (List.mem_filter.mpr ⟨hr', hp'⟩) hk

/-- Rows added below a partial unique index: unique among themselves, and under new keys. -/
theorem uniqueWhere_append {p : α → Bool} {key : α → β} {rows new : List α} :
    UniqueWhere p key (rows ++ new) ↔ UniqueWhere p key rows ∧ UniqueWhere p key new ∧
      ∀ x ∈ rows, p x → ∀ y ∈ new, p y → key x ≠ key y := by
  simp only [UniqueWhere, Unique, List.filter_append, List.map_append, List.nodup_append,
    List.mem_map, List.mem_filter]
  refine and_congr_right fun _ => and_congr_right fun _ => ⟨fun h x hx hp y hy hq => ?_, ?_⟩
  · exact h _ ⟨x, ⟨hx, hp⟩, rfl⟩ _ ⟨y, ⟨hy, hq⟩, rfl⟩
  · rintro h _ ⟨x, ⟨hx, hp⟩, rfl⟩ _ ⟨y, ⟨hy, hq⟩, rfl⟩
    exact h x hx hp y hy hq

/-- Rows changed so that none enters a partial unique index or moves in it. -/
theorem UniqueWhere.map {p : α → Bool} {key : α → β} {rows : List α} (h : UniqueWhere p key rows)
    {f : α → α} (hf : ∀ r ∈ rows, p (f r) → p r ∧ key (f r) = key r) :
    UniqueWhere p key (rows.map f) := by
  induction rows with
  | nil => exact List.nodup_nil
  | cons r rows ih =>
    have hrest : UniqueWhere p key (rows.map f) :=
      ih (List.Nodup.sublist ((List.sublist_cons_self r rows).filter p |>.map key) h)
        fun x hx => hf x (List.mem_cons_of_mem r hx)
    by_cases hp : p (f r)
    · obtain ⟨hpr, hkey⟩ := hf r (List.mem_cons_self ..) hp
      rw [UniqueWhere, List.map_cons, List.filter_cons_of_pos hp, Unique, List.map_cons,
        List.nodup_cons]
      refine ⟨fun hmem => ?_, hrest⟩
      obtain ⟨y, hy, hky⟩ := List.mem_map.mp hmem
      obtain ⟨hy, hpy⟩ := List.mem_filter.mp hy
      obtain ⟨x, hx, rfl⟩ := List.mem_map.mp hy
      obtain ⟨hpx, hkx⟩ := hf x (List.mem_cons_of_mem r hx) hpy
      rw [UniqueWhere, List.filter_cons_of_pos hpr, Unique, List.map_cons, List.nodup_cons] at h
      exact h.1 (List.mem_map.mpr
        ⟨x, List.mem_filter.mpr ⟨hx, hpx⟩, hkx.symm.trans (hky.trans hkey)⟩)
    · rwa [UniqueWhere, List.map_cons, List.filter_cons_of_neg hp]

/-- The rows a partial unique index allows under one key: at most one. -/
theorem UniqueWhere.length_le_one [DecidableEq β] {p : α → Bool} {key : α → β} {rows : List α}
    (h : UniqueWhere p key rows) (k : β) :
    (rows.filter fun r => p r && decide (key r = k)).length ≤ 1 := by
  have hnd : (((rows.filter p).filter fun r => decide (key r = k)).map key).Nodup :=
    List.Nodup.sublist (List.filter_sublist.map key) h
  have hall : ∀ x ∈ ((rows.filter p).filter fun r => decide (key r = k)).map key, x = k := by
    intro x hx
    obtain ⟨r, hr, rfl⟩ := List.mem_map.mp hx
    exact of_decide_eq_true (List.mem_filter.mp hr).2
  rw [List.eq_replicate_of_mem hall, List.nodup_replicate, List.length_map,
    List.filter_filter] at hnd
  simpa only [Bool.and_comm] using hnd

/-- Under a unique key, more than one row matches exactly if two different ones do. -/
theorem Unique.one_lt_length_filter {key : α → β} {rows : List α} (h : Unique key rows)
    {p : α → Bool} :
    1 < (rows.filter p).length ↔ ∃ r ∈ rows, ∃ r' ∈ rows, r ≠ r' ∧ p r ∧ p r' := by
  have hnd : (rows.filter p).Nodup := (List.Nodup.of_map key h).filter p
  constructor
  · intro hlt
    obtain ⟨a, b, l, hl⟩ : ∃ a b l, rows.filter p = a :: b :: l := by
      match hl : rows.filter p, hlt with
      | a :: b :: l, _ => exact ⟨a, b, l, rfl⟩
    have ha : a ∈ rows.filter p := by simp [hl]
    have hb : b ∈ rows.filter p := by simp [hl]
    have hab : a ≠ b := fun hab => by simp [hl, hab] at hnd
    exact ⟨a, (List.mem_filter.mp ha).1, b, (List.mem_filter.mp hb).1, hab,
      (List.mem_filter.mp ha).2, (List.mem_filter.mp hb).2⟩
  · rintro ⟨r, hr, r', hr', hne, hp, hp'⟩
    have hsub : [r, r'] ⊆ rows.filter p := by simp [hr, hr', hp, hp']
    have hpair : [r, r'].Nodup := by simp [hne]
    exact (List.subperm_of_subset hpair hsub).length_le

/-- The rows under a unique key: none, or one. -/
theorem Unique.filter_eq [DecidableEq β] {key : α → β} {rows : List α} (h : Unique key rows)
    (k : β) : rows.filter (fun r => key r = k) = [] ∨
      ∃ r ∈ rows, key r = k ∧ rows.filter (fun r => key r = k) = [r] := by
  match hl : rows.filter (fun r => key r = k) with
  | [] => exact .inl rfl
  | [r] =>
    have hr : r ∈ rows.filter (fun r => key r = k) := by simp [hl]
    obtain ⟨hr, hk⟩ := List.mem_filter.mp hr
    exact .inr ⟨r, hr, of_decide_eq_true hk, rfl⟩
  | r :: r' :: l =>
    obtain ⟨x, hx, y, hy, hne, hxk, hyk⟩ :=
      (h.one_lt_length_filter (p := fun r => key r = k)).mp (by simp [hl])
    exact absurd (h.eq hx hy ((of_decide_eq_true hxk).trans (of_decide_eq_true hyk).symm)) hne

/-! ## Statements -/

instance : Membership α (Table α C) := ⟨fun T r => r ∈ T.rows⟩

theorem mem_rows {T : Table α C} {r : α} : r ∈ T.rows ↔ r ∈ T := Iff.rfl

/-- The first row matching a condition. -/
def find? (T : Table α C) (p : α → Bool) : Option α := T.rows.find? p

theorem mem_of_find? {T : Table α C} {p : α → Bool} {r : α} (h : T.find? p = some r) : r ∈ T :=
  List.mem_of_find?_eq_some h

theorem pred_of_find? {T : Table α C} {p : α → Bool} {r : α} (h : T.find? p = some r) : p r :=
  List.find?_some h

section Statements

variable [DecidablePred C]

/-- The table with these rows, if the constraints admit them. -/
def replace (rows : List α) : Option (Table α C) :=
  if h : C rows then some ⟨rows, h⟩ else none

theorem replace_eq_some {rows : List α} {T : Table α C} :
    replace rows = some T ↔ T.rows = rows := by
  constructor
  · intro h
    simp only [replace, Option.dite_none_right_eq_some, Option.some.injEq] at h
    obtain ⟨_, rfl⟩ := h
    rfl
  · rintro rfl
    simp [replace, T.valid]

theorem replace_isSome {rows : List α} :
    (replace rows : Option (Table α C)).isSome ↔ C rows := by
  unfold replace
  split <;> simp_all

/-- INSERT of one row. -/
def insert (T : Table α C) (r : α) : Option (Table α C) := replace (T.rows ++ [r])

/-- UPDATE of the rows matching `p`. -/
def update (T : Table α C) (p : α → Bool) (f : α → α) : Option (Table α C) :=
  replace (T.rows.map fun r => if p r then f r else r)

/-- DELETE of the rows matching `p`. -/
def delete (T : Table α C) (p : α → Bool) : Option (Table α C) :=
  replace (T.rows.filter fun r => !p r)

variable {T T' : Table α C} {p : α → Bool} {f : α → α} {r : α}

theorem insert_eq_some : T.insert r = some T' ↔ T'.rows = T.rows ++ [r] := replace_eq_some

theorem update_eq_some :
    T.update p f = some T' ↔ T'.rows = T.rows.map fun r => if p r then f r else r :=
  replace_eq_some

theorem delete_eq_some : T.delete p = some T' ↔ T'.rows = T.rows.filter fun r => !p r :=
  replace_eq_some

theorem mem_insert {x : α} (h : T.insert r = some T') : x ∈ T' ↔ x ∈ T ∨ x = r := by
  rw [← mem_rows, insert_eq_some.mp h, List.mem_append, List.mem_singleton, mem_rows]

theorem mem_update {x : α} (h : T.update p f = some T') :
    x ∈ T' ↔ ∃ r ∈ T, (if p r then f r else r) = x := by
  rw [← mem_rows, update_eq_some.mp h, List.mem_map]
  rfl

theorem mem_delete {x : α} (h : T.delete p = some T') : x ∈ T' ↔ x ∈ T ∧ p x = false := by
  rw [← mem_rows, delete_eq_some.mp h, List.mem_filter, Bool.not_eq_true', mem_rows]

/-- What an update does to a row, if it does so to the rows it leaves alone. -/
theorem exists_mem_update {R : α → α → Prop} (h : T.update p f = some T') (hrefl : ∀ r, R r r)
    (hf : ∀ r, R r (f r)) (hr : r ∈ T) : ∃ r' ∈ T', R r r' := by
  refine ⟨_, (mem_update h).mpr ⟨r, hr, rfl⟩, ?_⟩
  split
  · exact hf r
  · exact hrefl r

/-- An update that leaves a column alone leaves the list of its values alone. -/
theorem map_update {g : α → β} (h : T.update p f = some T') (hg : ∀ r, g (f r) = g r) :
    T'.rows.map g = T.rows.map g := by
  rw [update_eq_some.mp h, List.map_map]
  refine List.map_congr_left fun r _ => ?_
  by_cases hp : p r <;> simp [hp, hg]

/-- A look-up after an update that leaves the condition alone finds the updated row. -/
theorem find?_update {k : α → Bool} (h : T.update p f = some T') (hk : ∀ r, k (f r) = k r) :
    T'.find? k = (T.find? k).map fun r => if p r then f r else r := by
  have hcomp : (k ∘ fun r => if p r then f r else r) = k := by
    funext r
    by_cases hp : p r <;> simp [hp, hk]
  rw [find?, update_eq_some.mp h, List.find?_map, hcomp]
  rfl

/-- Rows that an update leaves alone, among them every row that satisfies a condition before or after
it. -/
theorem filter_update {q : α → Bool} (h : T.update p f = some T')
    (hq : ∀ r ∈ T, p r → q r = false ∧ q (f r) = false) : T'.rows.filter q = T.rows.filter q := by
  rw [update_eq_some.mp h, List.filter_map]
  have hcomp : T.rows.filter (q ∘ fun r => if p r then f r else r) = T.rows.filter q := by
    refine List.filter_congr fun r hr => ?_
    by_cases hp : p r
    · obtain ⟨hbefore, hafter⟩ := hq r hr hp
      simp [hp, hbefore, hafter]
    · simp [hp]
  rw [hcomp]
  refine (List.map_congr_left fun r hr => ?_).trans (List.map_id _)
  obtain ⟨hr, hqr⟩ := List.mem_filter.mp hr
  refine if_neg fun hp => ?_
  rw [(hq r hr hp).1] at hqr
  cases hqr

theorem filter_insert {q : α → Bool} (h : T.insert r = some T') (hq : q r = false) :
    T'.rows.filter q = T.rows.filter q := by
  rw [insert_eq_some.mp h, List.filter_append, List.filter_cons_of_neg (by simp [hq]),
    List.filter_nil, List.append_nil]

/-- A look-up after an insert finds an old row first, then the new one. -/
theorem find?_insert {k : α → Bool} (h : T.insert r = some T') :
    T'.find? k = (T.find? k).or (if k r then some r else none) := by
  rw [find?, insert_eq_some.mp h, List.find?_append, List.find?_singleton]
  rfl

end Statements

end Table
