import ResourceHive.Machinery.Machine
import ResourceHive.Machinery.RowSecurity
import ResourceHive.Machinery.Table

/-!
# Machinery/Ownership — tables of several tenants, each with a database of its own

The rows of a table name their owner, or refer to a row of another table that has one, or are shared
(`Ownership`).  Policies **secure** the tables for the tenants if one sees, and may write, the rows
one owns and no others (`Secures`).

References are the weak point: a row changes hands without being touched if the row it refers to
does.  It does not as long as references have a target and the keys of targets are unique (`Sound`),
since a row that is replaced under its key is one that its owner sees (`owner_eq_of_key`).  So every
tenant has, in effect, a database of its own: the **part** of the shared one that it owns.

* `Secures.part_apply` — a tenant's write works on the tenant's part as if that were all there is;
* `Secures.partOf_exec` — so after any interleaving the tenant's statements have been answered, and
  have left its part, as if they had run on it alone;
* `Secures.owns_run` — and what others run leaves what it owns as it is.
-/

open RowSecurity (Rows Write Statement Server)

/-- **How the rows of a table are owned.** -/
inductive Ownership (δ ι : Type*) {τ : Type*} (Row : τ → Type*) (t : τ)
  | direct (owner : Row t → Option δ)
  | through (s : τ) (ref : Row t → ι)
  | shared

/-- **Tenants' tables**: each table's ownership, and the keys rows are referred to by. -/
structure Tenancy (δ ι : Type*) {τ : Type*} (Row : τ → Type*) where
  ownership : (t : τ) → Ownership δ ι Row t
  key : (t : τ) → Row t → ι
  level : τ → ℕ
  lower : ∀ {t s : τ} {ref : Row t → ι}, ownership t = .through s ref → level s < level t

namespace Tenancy

variable {δ ι τ : Type*} {Row : τ → Type*} [DecidableEq ι] (T : Tenancy δ ι Row)
  (db : Rows Row)

/-! ## The owner of a row -/

/-- The owner of a row of a table below a level. -/
def ownerBelow : ℕ → (t : τ) → Row t → Option δ
  | 0, _, _ => none
  | n + 1, t, r =>
    match T.ownership t with
    | .direct owner => owner r
    | .through s ref => ((db s).find? fun p => T.key s p = ref r).bind (ownerBelow n s)
    | .shared => none

/-- **The owner of a row.** -/
def owner (t : τ) (r : Row t) : Option δ := T.ownerBelow db (T.level t + 1) t r

variable {T db} {t s : τ} {ref : Row t → ι}

theorem ownerBelow_eq (n m : ℕ) (t : τ) (hn : T.level t < n) (hm : T.level t < m) :
    T.ownerBelow db n t = T.ownerBelow db m t := by
  induction n generalizing m t with
  | zero => exact absurd hn (Nat.not_lt_zero _)
  | succ n ih =>
    cases m with
    | zero => exact absurd hm (Nat.not_lt_zero _)
    | succ m =>
      funext r
      rw [ownerBelow, ownerBelow]
      cases hown : T.ownership t with
      | direct owner => rfl
      | shared => rfl
      | through s ref =>
        have hlt := T.lower hown
        simp only [ih m s (by omega) (by omega)]

theorem owner_of_direct {f : Row t → Option δ} (h : T.ownership t = .direct f) (r : Row t) :
    T.owner db t r = f r := by
  rw [owner, ownerBelow, h]

theorem owner_of_shared (h : T.ownership t = .shared) (r : Row t) : T.owner db t r = none := by
  rw [owner, ownerBelow, h]

theorem owner_of_through (h : T.ownership t = .through s ref) (r : Row t) :
    T.owner db t r = ((db s).find? fun p => T.key s p = ref r).bind (T.owner db s) := by
  have hlt := T.lower h
  rw [owner, ownerBelow, h]
  simp only [ownerBelow_eq (T.level t) (T.level s + 1) s hlt (Nat.lt_succ_self _)]
  rfl

/-- **References have a target, under a unique key.** -/
structure Sound (T : Tenancy δ ι Row) (db : Rows Row) : Prop where
  target : ∀ {t s : τ} {ref : Row t → ι}, T.ownership t = .through s ref →
    ∀ r ∈ db t, ∃ p ∈ db s, T.key s p = ref r
  unique : ∀ {t s : τ} {ref : Row t → ι}, T.ownership t = .through s ref →
    Table.Unique (T.key s) (db s)

/-- The owner is the one of the row referred to. -/
theorem Sound.owner_eq (h : T.Sound db) (ht : T.ownership t = .through s ref) {r : Row t}
    {p : Row s} (hp : p ∈ db s) (hkey : T.key s p = ref r) : T.owner db t r = T.owner db s p := by
  rw [owner_of_through ht, ← hkey, (h.unique ht).find?_eq hp]
  rfl

/-- Someone owns a row exactly if they own a row it refers to. -/
theorem Sound.owner_eq_some_iff (h : T.Sound db) (ht : T.ownership t = .through s ref) {r : Row t}
    {d : δ} : T.owner db t r = some d ↔ ∃ p ∈ db s, T.key s p = ref r ∧ T.owner db s p = some d := by
  constructor
  · intro howner
    rw [owner_of_through ht, Option.bind_eq_some_iff] at howner
    obtain ⟨p, hp, hd⟩ := howner
    exact ⟨p, List.mem_of_find?_eq_some hp,
      of_decide_eq_true (List.find?_some (p := fun p => decide (T.key s p = ref r)) hp), hd⟩
  · rintro ⟨p, hp, hkey, hd⟩
    rw [h.owner_eq ht hp hkey, hd]

/-! ## A step of one tenant -/

/-- **A step of a tenant**: the rows that are new are its own, and those of others stay; shared
tables are everyone's. -/
structure StepOf (T : Tenancy δ ι Row) (d : Option δ) (db e : Rows Row) : Prop where
  new : ∀ {t : τ}, T.ownership t ≠ .shared → ∀ r ∈ e t, r ∈ db t ∨ d.isSome ∧ T.owner db t r = d
  others : ∀ {t : τ}, T.ownership t ≠ .shared → ∀ r ∈ db t, T.owner db t r ≠ d ∨ d = none → r ∈ e t

variable {d : Option δ} {e : Rows Row}

/-- A row that refers to something before and after the step has one owner, if its target has. -/
theorem owner_eq_of_target (hdb : T.Sound db) (he : T.Sound e)
    (ht : T.ownership t = .through s ref)
    (htarget : ∀ p ∈ db s, ∀ p' ∈ e s, T.key s p = T.key s p' → T.owner db s p = T.owner e s p')
    {r : Row t} (hr : r ∈ e t) (hp : ∃ p ∈ db s, T.key s p = ref r) :
    T.owner db t r = T.owner e t r := by
  obtain ⟨p, hp, hkey⟩ := hp
  obtain ⟨p', hp', hkey'⟩ := he.target ht r hr
  rw [hdb.owner_eq ht hp hkey, he.owner_eq ht hp' hkey']
  exact htarget p hp p' hp' (hkey.trans hkey'.symm)

/-- What a row after the step belongs to, it belonged to, or would have: by the same for the table
it refers to. -/
theorem owner_eq_of_lower (hdb : T.Sound db) (he : T.Sound e) (hstep : T.StepOf d db e)
    (hlower : ∀ {s : τ} {ref : Row t → ι}, T.ownership t = .through s ref →
      ∀ p ∈ db s, ∀ p' ∈ e s, T.key s p = T.key s p' → T.owner db s p = T.owner e s p')
    {r : Row t} (hr : r ∈ e t) : T.owner db t r = T.owner e t r := by
  cases hown : T.ownership t with
  | direct f => rw [owner_of_direct hown, owner_of_direct hown]
  | shared => rw [owner_of_shared hown, owner_of_shared hown]
  | through s ref =>
    refine owner_eq_of_target hdb he hown (hlower hown) hr ?_
    rcases hstep.new (by rw [hown]; intro h; cases h) r hr with hold | ⟨hsome, hnew⟩
    · exact hdb.target hown r hold
    · obtain ⟨x, hx⟩ := Option.isSome_iff_exists.mp hsome
      obtain ⟨p, hp, hkey, -⟩ := (hdb.owner_eq_some_iff hown).mp (hnew.trans hx)
      exact ⟨p, hp, hkey⟩

/-- **A key does not change hands.**  By induction on the level: a row that is gone under its key is
its owner's, and what replaces it is the same owner's. -/
theorem owner_eq_of_key (hdb : T.Sound db) (he : T.Sound e) (hstep : T.StepOf d db e) (n : ℕ) :
    ∀ {t s : τ} {ref : Row t → ι}, T.level s < n → T.ownership t = .through s ref →
      ∀ p ∈ db s, ∀ p' ∈ e s, T.key s p = T.key s p' → T.owner db s p = T.owner e s p' := by
  induction n with
  | zero => exact fun h => absurd h (Nat.not_lt_zero _)
  | succ n ih =>
    intro t s ref hlt ht p hp p' hp' hkey
    have hafter : ∀ r ∈ e s, T.owner db s r = T.owner e s r := fun r hr =>
      owner_eq_of_lower hdb he hstep
        (fun hs => ih (by have := T.lower hs; omega) hs) hr
    by_cases hshared : T.ownership s = .shared
    · rw [owner_of_shared hshared, owner_of_shared hshared]
    rw [← hafter p' hp']
    rcases hstep.new hshared p' hp' with hold | ⟨hsome, hnew⟩
    · rw [(hdb.unique ht).eq hp hold hkey]
    · by_cases hmine : T.owner db s p = d
      · rw [hmine, hnew]
      · have hkept : p ∈ e s := hstep.others hshared p hp (.inl hmine)
        rw [(he.unique ht).eq hkept hp' hkey]

/-- **No step changes the owner of a row there is after it.** -/
theorem owner_eq (hdb : T.Sound db) (he : T.Sound e) (hstep : T.StepOf d db e) {r : Row t}
    (hr : r ∈ e t) : T.owner db t r = T.owner e t r :=
  owner_eq_of_lower hdb he hstep
    (fun hs => owner_eq_of_key hdb he hstep (T.level t) (T.lower hs) hs) hr

/-! ## Policies that secure the tables -/

/-- **Policies secure the tables**, for tenants `tenant c`: where references have targets, one sees
the rows one owns and no others, and may write no others. -/
structure Secures {κ : Type*} (T : Tenancy δ ι Row) (P : RowSecurity κ Row) (tenant : κ → Option δ) :
    Prop where
  sees_iff : ∀ {db : Rows Row} {c : κ} {t : τ} {r : Row t}, T.Sound db → T.ownership t ≠ .shared →
    r ∈ db t → (P.sees c db t r ↔ (tenant c).isSome ∧ T.owner db t r = tenant c)
  owner_of_mayWrite : ∀ {db : Rows Row} {c : κ} {t : τ} {r : Row t}, T.Sound db →
    T.ownership t ≠ .shared → P.mayWrite c db t r → (tenant c).isSome ∧ T.owner db t r = tenant c

variable {κ : Type*} {P : RowSecurity κ Row} {tenant : κ → Option δ} {c : κ}

theorem Secures.stepOf [DecidableEq τ] {w : Write Row} (h : T.Secures P tenant)
    (hdb : T.Sound db) (hw : P.apply c db w = some e) : T.StepOf (tenant c) db e where
  new ht r hr := (RowSecurity.mem_of_apply hw hr).imp_right (h.owner_of_mayWrite hdb ht)
  others ht r hr hne := by
    refine RowSecurity.mem_apply hw hr (Bool.eq_false_iff.mpr fun hsee => ?_)
    obtain ⟨hsome, howner⟩ := (h.sees_iff hdb ht hr).mp hsee
    rcases hne with hne | hnone
    · exact hne howner
    · rw [hnone] at hsome
      cases hsome

variable [DecidableEq δ]

variable (T db) in
/-- **A tenant's part**: the rows it owns, and the shared ones. -/
def part (d : δ) (t : τ) (r : Row t) : Bool :=
  match T.ownership t with
  | .shared => true
  | _ => decide (T.owner db t r = some d)

variable {d : δ}

theorem part_of_shared (h : T.ownership t = .shared) (r : Row t) : T.part db d t r = true := by
  rw [part, h]

theorem part_iff (h : T.ownership t ≠ .shared) {r : Row t} :
    T.part db d t r = true ↔ T.owner db t r = some d := by
  rw [part]
  split
  · next hown => exact absurd hown h
  · exact decide_eq_true_iff

theorem part_eq (hdb : T.Sound db) (he : T.Sound e) {d' : Option δ} (hstep : T.StepOf d' db e)
    {r : Row t} (hr : r ∈ e t) : T.part e d t r = T.part db d t r := by
  by_cases ht : T.ownership t = .shared
  · rw [part_of_shared ht, part_of_shared ht]
  · rw [Bool.eq_iff_iff, part_iff ht, part_iff ht, owner_eq hdb he hstep hr]

/-- A tenant's part has all the tenant sees. -/
theorem Secures.part_of_sees (h : T.Secures P tenant) (hdb : T.Sound db) (hc : tenant c = some d)
    {r : Row t} (hr : r ∈ db t) (hsee : P.sees c db t r) : T.part db d t r = true := by
  by_cases ht : T.ownership t = .shared
  · exact part_of_shared ht r
  · exact (part_iff ht).mpr (((h.sees_iff hdb ht hr).mp hsee).2.trans hc)

variable [DecidableEq τ] {w : Write Row}

/-- **The part of a tenant is the tenant's database.** -/
theorem Secures.part_apply (h : T.Secures P tenant) (hdb : T.Sound db) (he : T.Sound e)
    (hw : P.apply c db w = some e) (hc : tenant c = some d) :
    P.apply c (RowSecurity.slice (T.part db d) db) w
      = some (RowSecurity.slice (T.part e d) e) := by
  have hstep := h.stepOf hdb hw
  refine RowSecurity.slice_apply hw (fun t r hr => h.part_of_sees hdb hc hr)
    (fun t r _ hr => part_eq hdb he hstep hr) fun r hr => ?_
  by_cases ht : T.ownership w.table = .shared
  · exact part_of_shared ht r
  · have hmay := (RowSecurity.apply_eq_some.mp hw).1 r hr
    rw [part_eq hdb he hstep (RowSecurity.mem_of_mem_written hw hr), part_iff ht]
    exact (h.owner_of_mayWrite hdb ht hmay).2.trans hc

/-- **…and nobody else's.** -/
theorem Secures.part_of_foreign (h : T.Secures P tenant) (hdb : T.Sound db) (he : T.Sound e)
    (hw : P.apply c db w = some e) (hc : tenant c ≠ some d) (ht : T.ownership w.table ≠ .shared) :
    RowSecurity.slice (T.part e d) e = RowSecurity.slice (T.part db d) db := by
  have hstep := h.stepOf hdb hw
  refine RowSecurity.slice_of_foreign hw (fun r hr hsee => ?_)
    (fun t r _ hr => part_eq hdb he hstep hr) fun r hr => ?_
  · refine Bool.eq_false_iff.mpr fun hpart => hc ?_
    rw [← ((h.sees_iff hdb ht hr).mp hsee).2, (part_iff ht).mp hpart]
  · refine Bool.eq_false_iff.mpr fun hpart => hc ?_
    have hmay := (RowSecurity.apply_eq_some.mp hw).1 r hr
    rw [part_eq hdb he hstep (RowSecurity.mem_of_mem_written hw hr), part_iff ht] at hpart
    rw [← (h.owner_of_mayWrite hdb ht hmay).2, hpart]

variable (T db d) in
/-- The rows a tenant owns. -/
def owns (t : τ) (r : Row t) : Bool := decide (T.owner db t r = some d)

/-- **What a tenant owns only the tenant changes**, whatever becomes of shared tables. -/
theorem Secures.owns_of_foreign (h : T.Secures P tenant) (hdb : T.Sound db) (he : T.Sound e)
    (hw : P.apply c db w = some e) (hc : tenant c ≠ some d) :
    RowSecurity.slice (T.owns e d) e = RowSecurity.slice (T.owns db d) db := by
  have hstep := h.stepOf hdb hw
  have hsame : ∀ t, ∀ r ∈ e t, T.owns e d t r = T.owns db d t r := fun t r hr => by
    rw [owns, owns, owner_eq hdb he hstep hr]
  have hforeign : ∀ r, (T.ownership w.table ≠ .shared →
      (tenant c).isSome ∧ T.owner db w.table r = tenant c) → T.owns db d w.table r = false := by
    refine fun r hr => decide_eq_false fun howner => ?_
    by_cases ht : T.ownership w.table = .shared
    · rw [owner_of_shared ht] at howner
      cases howner
    · exact hc ((hr ht).2.symm.trans howner)
  refine RowSecurity.slice_of_foreign hw
    (fun r hr hsee => hforeign r fun ht => (h.sees_iff hdb ht hr).mp hsee)
    (fun t r _ hr => hsame t r hr) fun r hr => ?_
  rw [hsame w.table r (RowSecurity.mem_of_mem_written hw hr)]
  exact hforeign r fun ht => h.owner_of_mayWrite hdb ht ((RowSecurity.apply_eq_some.mp hw).1 r hr)

/-! ## Everyone's statements, and one tenant's -/

variable {C : Rows Row → Prop} [DecidablePred C] {ρ : Type*}

/-- A statement that writes no shared table. -/
def Private (T : Tenancy δ ι Row) (st : Statement Row ρ) : Prop :=
  ∀ w, st.write = some w → T.ownership w.table ≠ .shared

variable (T) in
/-- What a tenant has of the server: its part, and its answers. -/
def partOf (tenant : κ → Option δ) (d : δ) (s : Server κ ρ Row) : Server κ ρ Row where
  rows := RowSecurity.slice (T.part s.rows d) s.rows
  answers := s.answers.filter fun a => tenant a.1 = some d

/-- **The simulation.**  The tenant's own step is the same step of its part; no other step is any. -/
theorem Secures.partOf_step (h : T.Secures P tenant) (hsound : ∀ {db}, C db → T.Sound db)
    (hpart : ∀ {db}, C db → C (RowSecurity.slice (T.part db d) db)) {s t : Server κ ρ Row}
    {l : κ × Statement Row ρ} (hC : C s.rows) (hstep : (P.server C).step s l = some t) :
    (tenant l.1 = some d →
        (P.server C).step (T.partOf tenant d s) l = some (T.partOf tenant d t))
      ∧ (tenant l.1 ≠ some d → T.Private l.2 → T.partOf tenant d t = T.partOf tenant d s) := by
  obtain ⟨hanswers, hrows⟩ := RowSecurity.server_cases hstep
  constructor
  · intro hc
    have hview : P.view l.1 (RowSecurity.slice (T.part s.rows d) s.rows) = P.view l.1 s.rows :=
      RowSecurity.view_slice fun t r hr => h.part_of_sees (hsound hC) hc hr
    have hexec : P.exec C l.1 l.2 (T.partOf tenant d s).rows = some (T.partOf tenant d t).rows := by
      rw [RowSecurity.exec, partOf, partOf]
      rcases hrows with ⟨hw, hrows⟩ | ⟨w, hw, happly, hC'⟩
      · rw [hw, hrows]
      · rw [hw]
        refine Option.filter_eq_some_iff.mpr
          ⟨h.part_apply (hsound hC) (hsound hC') happly hc, decide_eq_true (hpart hC')⟩
    refine Option.map_eq_some_iff.mpr ⟨_, hexec, ?_⟩
    simp only [partOf, hanswers, List.filter_append, hview]
    simp [hc]
  · intro hc hprivate
    have hrows' : RowSecurity.slice (T.part t.rows d) t.rows
        = RowSecurity.slice (T.part s.rows d) s.rows := by
      rcases hrows with ⟨-, hrows⟩ | ⟨w, hw, happly, hC'⟩
      · rw [hrows]
      · exact h.part_of_foreign (hsound hC) (hsound hC') happly hc (hprivate w hw)
    simp [partOf, hrows', hanswers, hc]

/-- **Every tenant has a database of its own**: alone on its part, its statements are answered, and
leave the part, as they do among everyone's, as long as the others write no shared table. -/
theorem Secures.partOf_exec (h : T.Secures P tenant) (hsound : ∀ {db}, C db → T.Sound db)
    (hpart : ∀ {db}, C db → C (RowSecurity.slice (T.part db d) db)) {s t : Server κ ρ Row}
    {ls : List (κ × Statement Row ρ)} (hC : C s.rows) (hexec : (P.server C).exec s ls = some t)
    (hprivate : ∀ l ∈ ls, tenant l.1 ≠ some d → T.Private l.2) :
    (P.server C).exec (T.partOf tenant d s) (ls.filter fun l => tenant l.1 = some d)
      = some (T.partOf tenant d t) := by
  induction ls generalizing s with
  | nil =>
    obtain rfl := Option.some.inj hexec
    rfl
  | cons l ls ih =>
    obtain ⟨u, hu, hls⟩ := Option.bind_eq_some_iff.mp hexec
    have hCu : C u.rows := by
      obtain ⟨-, ⟨-, hrows⟩ | ⟨w, -, -, hC'⟩⟩ := RowSecurity.server_cases hu
      · exact hrows ▸ hC
      · exact hC'
    have hrest := ih hCu hls fun l hl => hprivate l (List.mem_cons_of_mem _ hl)
    obtain ⟨hown, hforeign⟩ := h.partOf_step hsound hpart hC hu
    by_cases hc : tenant l.1 = some d
    · rw [List.filter_cons_of_pos (by simpa using hc), Machine.exec, hown hc]
      exact hrest
    · rw [List.filter_cons_of_neg (by simpa using hc),
        ← hforeign hc (hprivate l (List.mem_cons_self ..) hc)]
      exact hrest

/-- **Whatever the others run, what a tenant owns stays.** -/
theorem Secures.owns_run (h : T.Secures P tenant) (hsound : ∀ {db}, C db → T.Sound db)
    {s t : Server κ ρ Row} (hC : C s.rows)
    (hrun : (P.server C).Run (fun _ l => tenant l.1 ≠ some d) s t) :
    RowSecurity.slice (T.owns t.rows d) t.rows = RowSecurity.slice (T.owns s.rows d) s.rows := by
  have hinv : C t.rows ∧ RowSecurity.slice (T.owns t.rows d) t.rows
      = RowSecurity.slice (T.owns s.rows d) s.rows := by
    refine hrun.invariant (I := fun u => C u.rows ∧ RowSecurity.slice (T.owns u.rows d) u.rows
      = RowSecurity.slice (T.owns s.rows d) s.rows) ⟨hC, rfl⟩ fun {u l v} hu hc hstep => ?_
    obtain ⟨-, ⟨-, hrows⟩ | ⟨w, -, happly, hC'⟩⟩ := RowSecurity.server_cases hstep
    · rwa [hrows]
    · exact ⟨hC', (h.owns_of_foreign (hsound hu.1) (hsound hC') happly hc).trans hu.2⟩
  exact hinv.2

end Tenancy
