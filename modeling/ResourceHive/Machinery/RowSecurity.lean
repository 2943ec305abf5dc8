import Mathlib.Data.List.Basic
import Mathlib.Logic.Function.Basic
import ResourceHive.Machinery.Machine

/-!
# Machinery/RowSecurity — tables whose rows are not for everyone

A policy says for each row whether a statement sees it and whether a statement may leave it behind.
It may itself look at other tables, as the same statement sees them; a **level** on the tables keeps
such policies from looking at each other in a circle, and is what `view` recurses on.

A statement is whatever can be computed from the view, so the rows it does not see can reach it in
one way only: through the rows it *will* see after them.  The two theorems about a write therefore
speak of a part of the database and of what becomes of the part.

* `slice_apply` — if the part has all the rows the write sees, the part after the write is what the
  write makes of the part alone;
* `slice_of_foreign` — if the part has none of them, the part is left as it is.
-/

namespace RowSecurity

/-- The rows of each table. -/
abbrev Rows {τ : Type*} (Row : τ → Type*) := ∀ t, List (Row t)

/-! ## What a statement does to a table -/

/-- **What a statement does to a table**, computed from a view `ν` of the database. -/
inductive Change (ν α : Type*)
  | insert (rows : ν → List α)
  | update (p : ν → α → Bool) (f : ν → α → α)
  | delete (p : ν → α → Bool)

namespace Change

variable {ν α : Type*} (v : ν) (see : α → Bool) (l : List α)

/-- The rows it leaves behind that were not there: inserted ones, and those it has updated. -/
def written : Change ν α → List α
  | insert rows => rows v
  | update p f => (l.filter fun r => see r && p v r).map (f v)
  | delete _ => []

/-- The rows of the table after it. -/
def after : Change ν α → List α
  | insert rows => l ++ rows v
  | update p f => l.map fun r => if see r && p v r then f v r else r
  | delete p => l.filter fun r => !(see r && p v r)

variable {v see l} {ch : Change ν α} {r : α}

theorem mem_of_mem_after (hr : r ∈ ch.after v see l) : r ∈ l ∨ r ∈ ch.written v see l := by
  cases ch with
  | insert rows => exact List.mem_append.mp hr
  | update p f =>
    obtain ⟨x, hx, rfl⟩ := List.mem_map.mp hr
    split
    · next hhit => exact .inr (List.mem_map_of_mem (List.mem_filter.mpr ⟨hx, hhit⟩))
    · exact .inl hx
  | delete p => exact .inl (List.mem_of_mem_filter hr)

theorem mem_after_of_mem_written (hr : r ∈ ch.written v see l) : r ∈ ch.after v see l := by
  cases ch with
  | insert rows => exact List.mem_append_right _ hr
  | update p f =>
    obtain ⟨x, hx, rfl⟩ := List.mem_map.mp hr
    obtain ⟨hx, hhit⟩ := List.mem_filter.mp hx
    exact List.mem_map.mpr ⟨x, hx, if_pos hhit⟩
  | delete p => cases hr

theorem mem_after_of_mem (hr : r ∈ l) (hsee : see r = false) : r ∈ ch.after v see l := by
  cases ch with
  | insert rows => exact List.mem_append_left _ hr
  | update p f => exact List.mem_map.mpr ⟨r, hr, by rw [hsee]; rfl⟩
  | delete p => exact List.mem_filter.mpr ⟨hr, by rw [hsee]; rfl⟩

/-- Of the rows of a table, a part with all that are seen. -/
theorem written_filter {keep : α → Bool} (hkeep : ∀ r ∈ l, see r → keep r) :
    ch.written v see (l.filter keep) = ch.written v see l := by
  cases ch with
  | insert rows => rfl
  | update p f =>
    rw [written, written, List.filter_filter]
    congr 1
    refine List.filter_congr fun r hr => ?_
    cases hsee : see r with
    | false => rfl
    | true => rw [hkeep r hr hsee, Bool.and_true]
  | delete p => rfl

/-- The updated rows of a part, if each row belongs to it after the update as before. -/
theorem filter_update {p : ν → α → Bool} {f : ν → α → α} {keep keep' : α → Bool}
    (hold : ∀ r ∈ l, r ∈ (update p f).after v see l → keep' r = keep r)
    (hhit : ∀ r ∈ l, see r && p v r → keep' (f v r) = keep r) :
    (l.map fun r => if see r && p v r then f v r else r).filter keep' =
      (l.filter keep).map fun r => if see r && p v r then f v r else r := by
  rw [List.filter_map]
  refine congrArg _ (List.filter_congr fun r hr => ?_)
  rw [Function.comp_apply]
  split
  · next h => exact hhit r hr h
  · next h => exact hold r hr (List.mem_map.mpr ⟨r, hr, if_neg h⟩)

/-- **What becomes of a part** with all rows that are seen, if of the rows that stay the same ones
belong to it as before and all new ones do. -/
theorem filter_after {keep keep' : α → Bool} (hkeep : ∀ r ∈ l, see r → keep r)
    (hold : ∀ r ∈ l, r ∈ ch.after v see l → keep' r = keep r)
    (hnew : ∀ r ∈ ch.written v see l, keep' r) :
    (ch.after v see l).filter keep' = ch.after v see (l.filter keep) := by
  cases ch with
  | insert rows =>
    have hall : (rows v).filter keep' = rows v := List.filter_eq_self.mpr hnew
    rw [after, after, List.filter_append, hall]
    exact congrArg (· ++ rows v)
      (List.filter_congr fun r hr => hold r hr (List.mem_append_left _ hr))
  | update p f =>
    refine filter_update hold fun r hr hhit => ?_
    rw [hkeep r hr (Bool.and_eq_true_iff.mp hhit).1]
    exact hnew _ (List.mem_map_of_mem (List.mem_filter.mpr ⟨hr, hhit⟩))
  | delete p =>
    rw [after, after, List.filter_filter, List.filter_filter]
    refine List.filter_congr fun r hr => ?_
    cases hhit : see r && p v r with
    | true => simp
    | false => rw [hold r hr (List.mem_filter.mpr ⟨hr, by rw [hhit]; rfl⟩), Bool.and_comm]

/-- …and of a part with none of them, if no new row belongs to it. -/
theorem filter_after_of_foreign {keep keep' : α → Bool} (hkeep : ∀ r ∈ l, see r → keep r = false)
    (hold : ∀ r ∈ l, r ∈ ch.after v see l → keep' r = keep r)
    (hnew : ∀ r ∈ ch.written v see l, keep' r = false) :
    (ch.after v see l).filter keep' = l.filter keep := by
  cases ch with
  | insert rows =>
    have hnone : (rows v).filter keep' = [] :=
      List.filter_eq_nil_iff.mpr fun r hr => by rw [hnew r hr]; exact Bool.false_ne_true
    rw [after, List.filter_append, hnone, List.append_nil]
    exact List.filter_congr fun r hr => hold r hr (List.mem_append_left _ hr)
  | update p f =>
    have hid : ∀ r ∈ l.filter keep, (if see r && p v r then f v r else r) = r := by
      intro r hr
      obtain ⟨hr, hk⟩ := List.mem_filter.mp hr
      refine if_neg fun hhit => ?_
      rw [hkeep r hr (Bool.and_eq_true_iff.mp hhit).1] at hk
      cases hk
    have hrow : ∀ r ∈ l, see r && p v r → keep' (f v r) = keep r := by
      intro r hr hhit
      rw [hkeep r hr (Bool.and_eq_true_iff.mp hhit).1]
      exact hnew _ (List.mem_map_of_mem (List.mem_filter.mpr ⟨hr, hhit⟩))
    rw [after, filter_update hold hrow, List.map_congr_left hid, List.map_id']
  | delete p =>
    rw [after, List.filter_filter]
    refine List.filter_congr fun r hr => ?_
    cases hhit : see r && p v r with
    | true => rw [hkeep r hr (Bool.and_eq_true_iff.mp hhit).1]; simp
    | false => rw [hold r hr (List.mem_filter.mpr ⟨hr, by rw [hhit]; rfl⟩)]; simp

end Change

/-- **A write**: a change of one table. -/
structure Write {τ : Type*} (Row : τ → Type*) where
  table : τ
  change : Change (Rows Row) (Row table)

end RowSecurity

/-- **Policies**: which rows a statement issued in a context sees (`USING`) and which rows it may
insert or leave updated (`WITH CHECK`), in terms of what it sees of the tables of lower level. -/
structure RowSecurity (κ : Type*) {τ : Type*} (Row : τ → Type*) where
  level : τ → ℕ
  visible : κ → (t : τ) → ((s : τ) → level s < level t → List (Row s)) → Row t → Bool
  withCheck : κ → (t : τ) → ((s : τ) → level s < level t → List (Row s)) → Row t → Bool

namespace RowSecurity

variable {κ τ : Type*} {Row : τ → Type*} (P : RowSecurity κ Row) (c : κ) (db : Rows Row)

/-! ## What a context sees -/

/-- What is seen of the tables below a level. -/
def below : (n : ℕ) → (t : τ) → P.level t < n → List (Row t)
  | n + 1, t, h =>
    (db t).filter (P.visible c t fun s hs =>
      below n s (Nat.lt_of_lt_of_le hs (Nat.le_of_lt_succ h)))

/-- **The view**: the visible rows of each table. -/
def view : Rows Row := fun t => P.below c db (P.level t + 1) t (Nat.lt_succ_self _)

/-- A row is seen… -/
def sees (t : τ) (r : Row t) : Bool := P.visible c t (fun s _ => P.view c db s) r

/-- …and may be left behind. -/
def mayWrite (t : τ) (r : Row t) : Bool := P.withCheck c t (fun s _ => P.view c db s) r

variable {P c db}

theorem below_eq (n m : ℕ) (t : τ) (hn : P.level t < n) (hm : P.level t < m) :
    P.below c db n t hn = P.below c db m t hm := by
  induction n generalizing m t with
  | zero => exact absurd hn (Nat.not_lt_zero _)
  | succ n ih =>
    cases m with
    | zero => exact absurd hm (Nat.not_lt_zero _)
    | succ m =>
      have hlower : (fun s (hs : P.level s < P.level t) => P.below c db n s
          (Nat.lt_of_lt_of_le hs (Nat.le_of_lt_succ hn))) = fun s hs => P.below c db m s
          (Nat.lt_of_lt_of_le hs (Nat.le_of_lt_succ hm)) := by
        funext s hs
        exact ih m s _ _
      rw [below, below, hlower]

theorem view_apply (t : τ) : P.view c db t = (db t).filter (P.sees c db t) := by
  have hlower : (fun s (hs : P.level s < P.level t) => P.below c db (P.level t) s
      (Nat.lt_of_lt_of_le hs (Nat.le_refl _))) = fun s _ => P.view c db s := by
    funext s hs
    exact below_eq _ _ s _ _
  rw [view, below, hlower]
  rfl

theorem mem_view {t : τ} {r : Row t} : r ∈ P.view c db t ↔ r ∈ db t ∧ P.sees c db t r := by
  rw [view_apply, List.mem_filter]

/-- What is seen depends on the views of the tables of lower level. -/
theorem sees_congr {db' : Rows Row} {t : τ}
    (h : ∀ s, P.level s < P.level t → P.view c db s = P.view c db' s) :
    P.sees c db t = P.sees c db' t := by
  have hlower : (fun s (_ : P.level s < P.level t) => P.view c db s) = fun s _ => P.view c db' s := by
    funext s hs
    exact h s hs
  funext r
  rw [sees, sees, hlower]

theorem mayWrite_congr {db' : Rows Row} {t : τ}
    (h : ∀ s, P.level s < P.level t → P.view c db s = P.view c db' s) :
    P.mayWrite c db t = P.mayWrite c db' t := by
  have hlower : (fun s (_ : P.level s < P.level t) => P.view c db s) = fun s _ => P.view c db' s := by
    funext s hs
    exact h s hs
  funext r
  rw [mayWrite, mayWrite, hlower]

/-! ## A write -/

variable (P c db) in
/-- The rows a write leaves behind… -/
def written (w : Write Row) : List (Row w.table) :=
  w.change.written (P.view c db) (P.sees c db w.table) (db w.table)

variable (P c db) in
/-- …and its table after it. -/
def after (w : Write Row) : List (Row w.table) :=
  w.change.after (P.view c db) (P.sees c db w.table) (db w.table)

variable (P c db) in
/-- **One write**; none if a policy rejects a row it would leave behind. -/
def apply [DecidableEq τ] (w : Write Row) : Option (Rows Row) :=
  if (P.written c db w).all (P.mayWrite c db w.table) then
    some (Function.update db w.table (P.after c db w))
  else none

variable [DecidableEq τ] {w : Write Row} {e : Rows Row}

theorem apply_eq_some : P.apply c db w = some e ↔
    (∀ r ∈ P.written c db w, P.mayWrite c db w.table r) ∧
      Function.update db w.table (P.after c db w) = e := by
  rw [apply, Option.ite_none_right_eq_some, Option.some.injEq, List.all_eq_true]

/-- The tables it does not write stay. -/
theorem apply_of_ne (h : P.apply c db w = some e) {t : τ} (ht : t ≠ w.table) : e t = db t := by
  rw [← (apply_eq_some.mp h).2, Function.update_of_ne ht]

theorem apply_self (h : P.apply c db w = some e) : e w.table = P.after c db w := by
  rw [← (apply_eq_some.mp h).2, Function.update_self]

theorem mem_of_mem_written (h : P.apply c db w = some e) {r : Row w.table}
    (hr : r ∈ P.written c db w) : r ∈ e w.table :=
  apply_self h ▸ Change.mem_after_of_mem_written hr

/-- **A row after a write** was there, or the policies let the write leave it behind. -/
theorem mem_of_apply (h : P.apply c db w = some e) {t : τ} {r : Row t} (hr : r ∈ e t) :
    r ∈ db t ∨ P.mayWrite c db t r := by
  by_cases ht : t = w.table
  · subst ht
    rw [apply_self h] at hr
    exact (Change.mem_of_mem_after hr).imp_right ((apply_eq_some.mp h).1 r)
  · exact .inl (apply_of_ne h ht ▸ hr)

/-- **A row that is not seen stays.** -/
theorem mem_apply (h : P.apply c db w = some e) {t : τ} {r : Row t} (hr : r ∈ db t)
    (hsee : P.sees c db t r = false) : r ∈ e t := by
  by_cases ht : t = w.table
  · subst ht
    rw [apply_self h]
    exact Change.mem_after_of_mem hr hsee
  · exact apply_of_ne h ht ▸ hr

/-! ## A part of the database -/

/-- The rows that belong to a part. -/
def slice (keep : ∀ t, Row t → Bool) (db : Rows Row) : Rows Row := fun t => (db t).filter (keep t)

variable {keep keep' : ∀ t, Row t → Bool}

omit [DecidableEq τ] in
/-- A part with all rows that are seen has the same view. -/
theorem view_slice (hkeep : ∀ t, ∀ r ∈ db t, P.sees c db t r → keep t r) :
    P.view c (slice keep db) = P.view c db := by
  have key : ∀ n t, P.level t < n → P.view c (slice keep db) t = P.view c db t := by
    intro n
    induction n with
    | zero => exact fun t ht => absurd ht (Nat.not_lt_zero _)
    | succ n ih =>
      intro t ht
      have hsees : P.sees c (slice keep db) t = P.sees c db t :=
        sees_congr fun s hs => ih s (by omega)
      rw [view_apply, view_apply, hsees, slice, List.filter_filter]
      refine List.filter_congr fun r hr => ?_
      cases hr' : P.sees c db t r with
      | false => rfl
      | true => rw [hkeep t r hr hr']; rfl
  funext t
  exact key (P.level t + 1) t (Nat.lt_succ_self _)

/-- **A write by one who sees only rows of the part**: the part is as if it were all there is. -/
theorem slice_apply (h : P.apply c db w = some e)
    (hkeep : ∀ t, ∀ r ∈ db t, P.sees c db t r → keep t r)
    (hold : ∀ t, ∀ r ∈ db t, r ∈ e t → keep' t r = keep t r)
    (hnew : ∀ r ∈ P.written c db w, keep' w.table r) :
    P.apply c (slice keep db) w = some (slice keep' e) := by
  have hview := view_slice hkeep
  have hsees : P.sees c (slice keep db) w.table = P.sees c db w.table :=
    sees_congr fun s _ => congrFun hview s
  have hmay : P.mayWrite c (slice keep db) w.table = P.mayWrite c db w.table :=
    mayWrite_congr fun s _ => congrFun hview s
  have hwritten : P.written c (slice keep db) w = P.written c db w := by
    rw [written, hview, hsees]
    exact Change.written_filter (hkeep w.table)
  refine apply_eq_some.mpr ⟨by rw [hwritten, hmay]; exact (apply_eq_some.mp h).1, ?_⟩
  funext t
  by_cases ht : t = w.table
  · subst ht
    rw [Function.update_self, slice, apply_self h, after, hview, hsees]
    exact (Change.filter_after (hkeep w.table)
      (fun r hr hr' => hold w.table r hr (apply_self h ▸ hr')) hnew).symm
  · rw [Function.update_of_ne ht, slice, slice, apply_of_ne h ht]
    exact (List.filter_congr fun r hr => hold t r hr (apply_of_ne h ht ▸ hr)).symm

/-- **A write by one who sees no row of the part** leaves the part alone. -/
theorem slice_of_foreign (h : P.apply c db w = some e)
    (hkeep : ∀ r ∈ db w.table, P.sees c db w.table r → keep w.table r = false)
    (hold : ∀ t, ∀ r ∈ db t, r ∈ e t → keep' t r = keep t r)
    (hnew : ∀ r ∈ P.written c db w, keep' w.table r = false) :
    slice keep' e = slice keep db := by
  funext t
  by_cases ht : t = w.table
  · subst ht
    rw [slice, apply_self h]
    exact Change.filter_after_of_foreign hkeep
      (fun r hr hr' => hold w.table r hr (apply_self h ▸ hr')) hnew
  · rw [slice, slice, apply_of_ne h ht]
    exact List.filter_congr fun r hr => hold t r hr (apply_of_ne h ht ▸ hr)

/-! ## Statements, one after the other -/

/-- **A statement**: what it reads is computed from the view, before its write. -/
structure Statement {τ : Type*} (Row : τ → Type*) (ρ : Type*) where
  read : Rows Row → ρ
  write : Option (Write Row) := none

/-- The rows of the tables, and what has been read in which context. -/
structure Server (κ ρ : Type*) {τ : Type*} (Row : τ → Type*) where
  rows : Rows Row
  answers : List (κ × ρ) := []

variable {ρ : Type*}

variable (P) in
/-- The rows after a statement; none if a policy or a constraint rejects them. -/
def exec (C : Rows Row → Prop) [DecidablePred C] (c : κ) (st : Statement Row ρ) (db : Rows Row) :
    Option (Rows Row) :=
  match st.write with
  | none => some db
  | some w => (P.apply c db w).filter fun e => decide (C e)

variable (P) in
/-- **The server** takes statements in whatever order they come; one that is rejected is no step. -/
def server (C : Rows Row → Prop) [DecidablePred C] :
    Machine (Server κ ρ Row) (κ × Statement Row ρ) where
  init s := C s.rows
  step s l := (P.exec C l.1 l.2 s.rows).map fun rows =>
    { rows, answers := s.answers ++ [(l.1, l.2.read (P.view l.1 s.rows))] }

variable {C : Rows Row → Prop} [DecidablePred C]

/-- **What a step of the server is**: a reading, or a write within the constraints. -/
theorem server_cases {s t : Server κ ρ Row} {l : κ × Statement Row ρ}
    (h : (P.server C).step s l = some t) :
    t.answers = s.answers ++ [(l.1, l.2.read (P.view l.1 s.rows))]
      ∧ (l.2.write = none ∧ t.rows = s.rows
        ∨ ∃ w, l.2.write = some w ∧ P.apply l.1 s.rows w = some t.rows ∧ C t.rows) := by
  obtain ⟨rows, hrows, rfl⟩ := Option.map_eq_some_iff.mp h
  refine ⟨rfl, ?_⟩
  rw [exec] at hrows
  cases hw : l.2.write with
  | none =>
    rw [hw] at hrows
    exact .inl ⟨rfl, (Option.some.inj hrows).symm⟩
  | some w =>
    rw [hw] at hrows
    obtain ⟨happly, hC⟩ := Option.filter_eq_some_iff.mp hrows
    exact .inr ⟨w, rfl, happly, of_decide_eq_true hC⟩

end RowSecurity
