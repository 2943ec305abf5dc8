import Mathlib.Data.List.Induction
import ResourceHive.Machinery.Machine

/-!
# Machinery/Transactions — concurrent calls over one database, statement by statement

A **call** is at a program point; from there it either makes a read (or a step that touches no
database at all), or it is about to run a transaction, whose write statements are listed at that
point and executed one at a time.  Writes stay invisible to every other call until the commit, which
replays them on the database committed by then; a statement that a constraint rejects has no
successor but the rollback of its whole transaction, and a rollback may come at any moment (a
deadlock, a serialization failure, a lost connection).

This is READ COMMITTED: each read sees what is committed when it is made.  Row locks only delay a
write until the transaction holding the row has ended, and then it applies to the row that one left,
so replaying at the commit is what the locked write does; orders of steps that a lock would forbid
are not excluded here.  A transaction whose reads all see one snapshot makes them in a single read
step; a statement updating every row that matches a condition is a read of the matching rows
followed by the write of those rows.

The proof rule is `Outline`: an invariant of the database, and at each program point an assertion
that the other calls' commits do not disturb.
-/

/-- The programs of the calls: `σ` databases, `P` program points, `S` write statements, `I` what a
read takes from outside (clocks, fresh ids), `X` changes made by others, `E` recorded events. -/
structure Code (σ P S I X E : Type*) where
  /-- Where a call may begin. -/
  entry : P → Bool
  /-- A read, or a step without database access; `none` if there is none at this point. -/
  read : σ → P → I → Option P
  /-- The write statements of the transaction run at this point. -/
  writes : P → List S
  /-- One statement; `none` if a constraint rejects it. -/
  exec : S → σ → Option σ
  /-- The point after the commit. -/
  committed : P → P
  /-- The point after a rollback. -/
  rolledBack : P → P
  /-- What the commit at this point leaves in the history. -/
  emits : P → List E
  /-- A committed change by someone else. -/
  outside : X → σ → Option σ

/-- A call in progress: its point, and how many statements of its transaction have been executed. -/
structure Session (P : Type*) where
  pc : P
  executed : ℕ
  deriving DecidableEq, Repr

/-- The committed database, the history of commits, and the calls. -/
structure Sessions (σ P E : Type*) where
  db : σ
  history : List E
  calls : List (Session P)

/-- Which step is taken, and by which call. -/
inductive Label (P I X : Type*)
  | call (p : P)
  | read (i : ℕ) (x : I)
  | write (i : ℕ)
  | commit (i : ℕ)
  | rollback (i : ℕ)
  | outside (x : X)

/-- The call that takes a step, if one does. -/
def Label.of {P I X : Type*} : Label P I X → Option ℕ
  | .read i _ | .write i | .commit i | .rollback i => some i
  | .call _ | .outside _ => none

namespace Code

variable {σ P S I X E : Type*} (C : Code σ P S I X E)

/-- The statements of a list, one after the other; `none` if one of them is rejected. -/
def replay (ws : List S) (db : σ) : Option σ := ws.foldlM (fun d w => C.exec w d) db

@[simp] theorem replay_nil (db : σ) : C.replay [] db = some db := rfl

@[simp] theorem replay_cons (w : S) (ws : List S) (db : σ) :
    C.replay (w :: ws) db = (C.exec w db).bind (C.replay ws) := rfl

/-- The sessions with call `i` moved to another point, outside any transaction. -/
def moveTo (s : Sessions σ P E) (i : ℕ) (p : P) : Sessions σ P E :=
  { s with calls := s.calls.set i ⟨p, 0⟩ }

@[simp] theorem moveTo_db (s : Sessions σ P E) (i : ℕ) (p : P) : (moveTo s i p).db = s.db := rfl

@[simp] theorem moveTo_history (s : Sessions σ P E) (i : ℕ) (p : P) :
    (moveTo s i p).history = s.history := rfl

/-- **One step.** -/
def step (s : Sessions σ P E) : Label P I X → Option (Sessions σ P E)
  | .call p => if C.entry p then some { s with calls := s.calls ++ [⟨p, 0⟩] } else none
  | .read i x =>
      s.calls[i]?.bind fun c =>
        if c.executed = 0 then (C.read s.db c.pc x).map (moveTo s i) else none
  | .write i =>
      s.calls[i]?.bind fun c =>
        if c.executed < (C.writes c.pc).length ∧
            (C.replay ((C.writes c.pc).take (c.executed + 1)) s.db).isSome then
          some { s with calls := s.calls.set i ⟨c.pc, c.executed + 1⟩ }
        else none
  | .commit i =>
      s.calls[i]?.bind fun c =>
        if 0 < c.executed ∧ c.executed = (C.writes c.pc).length then
          (C.replay (C.writes c.pc) s.db).map fun db =>
            moveTo { s with db := db, history := s.history ++ C.emits c.pc } i (C.committed c.pc)
        else none
  | .rollback i => s.calls[i]?.map fun c => moveTo s i (C.rolledBack c.pc)
  | .outside x => (C.outside x s.db).map fun db => { s with db := db }

/-- The machine of the calls, from the databases satisfying `init`. -/
def machine (init : σ → Prop) : Machine (Sessions σ P E) (Label P I X) where
  init s := init s.db ∧ s.history = [] ∧ s.calls = []
  step := C.step

/-! ## What a step can do

`step_cases` is the only place where `step` is taken apart. -/

/-- **The cases of a step**, guards included. -/
inductive Moves (s : Sessions σ P E) : Label P I X → Sessions σ P E → Prop
  | call {p : P} (h : C.entry p = true) : Moves s (.call p) { s with calls := s.calls ++ [⟨p, 0⟩] }
  | read {i : ℕ} {x : I} {c : Session P} {p : P} (hc : s.calls[i]? = some c) (h0 : c.executed = 0)
      (h : C.read s.db c.pc x = some p) : Moves s (.read i x) (moveTo s i p)
  | write {i : ℕ} {c : Session P} (hc : s.calls[i]? = some c)
      (hlt : c.executed < (C.writes c.pc).length)
      (h : (C.replay ((C.writes c.pc).take (c.executed + 1)) s.db).isSome) :
      Moves s (.write i) { s with calls := s.calls.set i ⟨c.pc, c.executed + 1⟩ }
  | commit {i : ℕ} {c : Session P} {db : σ} (hc : s.calls[i]? = some c) (hpos : 0 < c.executed)
      (hall : c.executed = (C.writes c.pc).length) (h : C.replay (C.writes c.pc) s.db = some db) :
      Moves s (.commit i)
        (moveTo { s with db := db, history := s.history ++ C.emits c.pc } i (C.committed c.pc))
  | rollback {i : ℕ} {c : Session P} (hc : s.calls[i]? = some c) :
      Moves s (.rollback i) (moveTo s i (C.rolledBack c.pc))
  | outside {x : X} {db : σ} (h : C.outside x s.db = some db) :
      Moves s (.outside x) { s with db := db }

variable {C}

theorem step_cases {s t : Sessions σ P E} {l : Label P I X} (h : C.step s l = some t) :
    C.Moves s l t := by
  cases l with
  | call p =>
    simp only [step, Option.ite_none_right_eq_some, Option.some.injEq] at h
    obtain ⟨hp, rfl⟩ := h
    exact .call hp
  | read i x =>
    obtain ⟨c, hc, h⟩ := Option.bind_eq_some_iff.mp h
    simp only [Option.ite_none_right_eq_some, Option.map_eq_some_iff] at h
    obtain ⟨h0, p, hp, rfl⟩ := h
    exact .read hc h0 hp
  | write i =>
    obtain ⟨c, hc, h⟩ := Option.bind_eq_some_iff.mp h
    simp only [Option.ite_none_right_eq_some, Option.some.injEq] at h
    obtain ⟨⟨hlt, hrep⟩, rfl⟩ := h
    exact .write hc hlt hrep
  | commit i =>
    obtain ⟨c, hc, h⟩ := Option.bind_eq_some_iff.mp h
    simp only [Option.ite_none_right_eq_some, Option.map_eq_some_iff] at h
    obtain ⟨⟨hpos, hall⟩, db, hdb, rfl⟩ := h
    exact .commit hc hpos hall hdb
  | rollback i =>
    obtain ⟨c, hc, rfl⟩ := Option.map_eq_some_iff.mp h
    exact .rollback hc
  | outside x =>
    obtain ⟨db, hdb, rfl⟩ := Option.map_eq_some_iff.mp h
    exact .outside hdb

/-- A call in the list after one entry was replaced: the new one, or one at another index. -/
theorem mem_set_cases {α : Type*} {l : List α} {i : ℕ} {a c : α} (h : c ∈ l.set i a) :
    c = a ∨ ∃ j, j ≠ i ∧ l[j]? = some c := by
  obtain ⟨j, hj⟩ := List.mem_iff_getElem?.mp h
  by_cases hij : i = j
  · subst hij
    rw [List.getElem?_set_self'] at hj
    obtain ⟨_, -, rfl⟩ := Option.map_eq_some_iff.mp hj
    exact .inl rfl
  · rw [List.getElem?_set_ne hij] at hj
    exact .inr ⟨j, Ne.symm hij, hj⟩

/-- **What a step is to one of the calls**: another call's step, which leaves it where it is, or one
of its own. -/
inductive CallMoves (C : Code σ P S I X E) (s : Sessions σ P E) (i : ℕ) (c : Session P) :
    Label P I X → Sessions σ P E → Prop
  | other {l t} (hl : l.of ≠ some i) (h : t.calls[i]? = some c) : CallMoves C s i c l t
  | read {x p t} (h : C.read s.db c.pc x = some p) (hdb : t.db = s.db)
      (hc : t.calls[i]? = some ⟨p, 0⟩) : CallMoves C s i c (.read i x) t
  | write {t} (hlt : c.executed < (C.writes c.pc).length) (hdb : t.db = s.db)
      (hc : t.calls[i]? = some ⟨c.pc, c.executed + 1⟩) : CallMoves C s i c (.write i) t
  | commit {t} (hne : C.writes c.pc ≠ []) (h : C.replay (C.writes c.pc) s.db = some t.db)
      (hc : t.calls[i]? = some ⟨C.committed c.pc, 0⟩) : CallMoves C s i c (.commit i) t
  | rollback {t} (hdb : t.db = s.db) (hc : t.calls[i]? = some ⟨C.rolledBack c.pc, 0⟩) :
      CallMoves C s i c (.rollback i) t

theorem call_cases {s t : Sessions σ P E} {l : Label P I X} {i : ℕ} {c : Session P}
    (hc : s.calls[i]? = some c) (h : C.step s l = some t) : CallMoves C s i c l t := by
  have hlt := (List.getElem?_eq_some_iff.mp hc).1
  have hset (d : Session P) : (s.calls.set i d)[i]? = some d := List.getElem?_set_self hlt
  have hother {j : ℕ} (hij : j ≠ i) (d : Session P) : (s.calls.set j d)[i]? = some c := by
    rw [List.getElem?_set_ne hij, hc]
  cases step_cases h with
  | call =>
    refine .other nofun ?_
    rw [List.getElem?_append_left hlt]
    exact hc
  | @read j x d p hd h0 hread =>
    by_cases hij : j = i
    · subst hij
      obtain rfl := Option.some.inj (hc.symm.trans hd)
      exact .read hread rfl (hset _)
    · exact .other (fun hl => hij (Option.some.inj hl)) (hother hij _)
  | @write j d hd hlt' hrep =>
    by_cases hij : j = i
    · subst hij
      obtain rfl := Option.some.inj (hc.symm.trans hd)
      exact .write hlt' rfl (hset _)
    · exact .other (fun hl => hij (Option.some.inj hl)) (hother hij _)
  | @commit j d db hd hpos hall hrep =>
    by_cases hij : j = i
    · subst hij
      obtain rfl := Option.some.inj (hc.symm.trans hd)
      exact .commit (List.ne_nil_of_length_pos (hall ▸ hpos)) hrep (hset _)
    · exact .other (fun hl => hij (Option.some.inj hl)) (hother hij _)
  | @rollback j d hd =>
    by_cases hij : j = i
    · subst hij
      obtain rfl := Option.some.inj (hc.symm.trans hd)
      exact .rollback rfl (hset _)
    · exact .other (fun hl => hij (Option.some.inj hl)) (hother hij _)
  | outside => exact .other nofun hc

/-- **A call that was not there** is at a point where it may begin. -/
theorem new_call {s t : Sessions σ P E} {l : Label P I X} {i : ℕ} {c : Session P}
    (hnone : s.calls[i]? = none) (h : C.step s l = some t) (hc : t.calls[i]? = some c) :
    C.entry c.pc = true := by
  have hlen := List.getElem?_eq_none_iff.mp hnone
  have hset {j : ℕ} {d : Session P} (hd : (s.calls.set j d)[i]? = some c) : False := by
    rw [List.getElem?_eq_none (by rwa [List.length_set])] at hd
    cases hd
  cases step_cases h with
  | @call p hp =>
    rw [List.getElem?_append_right hlen] at hc
    obtain rfl := List.mem_singleton.mp (List.mem_of_getElem? hc)
    exact hp
  | read | write | commit | rollback => exact (hset hc).elim
  | outside =>
    rw [hnone] at hc
    cases hc

/-- The history only grows. -/
theorem history_prefix {ok : Sessions σ P E → Label P I X → Prop} {init : σ → Prop}
    {s t : Sessions σ P E} (h : (C.machine init).Run ok s t) : s.history <+: t.history := by
  induction h with
  | refl => exact List.prefix_rfl
  | tail _ _ hstep ih =>
    cases step_cases hstep with
    | call | read | write | rollback | outside => exact ih
    | commit => exact ih.trans (List.prefix_append _ _)

/-- **How a call got where only a commit leads.**  A call that is at a point it can neither begin at
nor read or roll back its way to has committed: in every run to the state, there is that commit. -/
theorem exists_commit {Q : P → Prop} (hentry : ∀ {p}, C.entry p = true → ¬ Q p)
    (hread : ∀ {db p x p'}, C.read db p x = some p' → Q p' → Q p)
    (hrolledBack : ∀ {p}, Q (C.rolledBack p) → Q p) {init : σ → Prop} {s : Sessions σ P E}
    (hs : (C.machine init).init s) {ls : List (Label P I X)} {i : ℕ} :
    ∀ {t : Sessions σ P E} {c : Session P}, (C.machine init).exec s ls = some t →
      t.calls[i]? = some c → Q c.pc →
      ∃ ls₁ ls₂ u v d, ls = ls₁ ++ .commit i :: ls₂ ∧ (C.machine init).exec s ls₁ = some u ∧
        u.calls[i]? = some d ∧ Q (C.committed d.pc) ∧ ¬ Q d.pc ∧
        C.step u (.commit i) = some v ∧ (C.machine init).exec v ls₂ = some t := by
  induction ls using List.reverseRecOn with
  | nil =>
    intro t c h hc
    obtain rfl : s = t := Option.some.inj h
    rw [hs.2.2] at hc
    cases hc
  | append_singleton ls l ih =>
    intro t c h hc hQ
    rw [Machine.exec_append] at h
    obtain ⟨u, hu, hrest⟩ := Option.bind_eq_some_iff.mp h
    obtain ⟨t', hstep, hlast⟩ := Option.bind_eq_some_iff.mp hrest
    obtain rfl : t' = t := Option.some.inj hlast
    have hbefore {d : Session P} (hd : u.calls[i]? = some d) (hQd : Q d.pc) :
        ∃ ls₁ ls₂ u v d, ls ++ [l] = ls₁ ++ .commit i :: ls₂ ∧
          (C.machine init).exec s ls₁ = some u ∧ u.calls[i]? = some d ∧ Q (C.committed d.pc) ∧
          ¬ Q d.pc ∧ C.step u (.commit i) = some v ∧
          (C.machine init).exec v ls₂ = some t' := by
      obtain ⟨ls₁, ls₂, u', v, d', rfl, hu', hd', hQ', hnot, hcommit, hv⟩ := ih hu hd hQd
      refine ⟨ls₁, ls₂ ++ [l], u', v, d', by simp, hu', hd', hQ', hnot, hcommit, ?_⟩
      rw [Machine.exec_append, hv]
      exact hrest
    cases hd : u.calls[i]? with
    | none => exact absurd hQ (hentry (new_call hd hstep hc))
    | some d =>
      by_cases hQd : Q d.pc
      · exact hbefore hd hQd
      · cases call_cases hd hstep with
        | other _ hsame =>
          obtain rfl := Option.some.inj (hsame.symm.trans hc)
          exact hbefore hd hQ
        | read hr _ hp =>
          obtain rfl := Option.some.inj (hp.symm.trans hc)
          exact absurd (hread hr hQ) hQd
        | write _ _ hp =>
          obtain rfl := Option.some.inj (hp.symm.trans hc)
          exact absurd hQ hQd
        | commit _ _ hp =>
          obtain rfl := Option.some.inj (hp.symm.trans hc)
          exact ⟨ls, [], u, _, d, rfl, hu, hd, hQ, hQd, hstep, rfl⟩
        | rollback _ hp =>
          obtain rfl := Option.some.inj (hp.symm.trans hc)
          exact absurd (hrolledBack hQ) hQd

/-! ## Following one call -/

section Follow

variable {ok : Sessions σ P E → Label P I X → Prop} {Inv : Sessions σ P E → Prop}
  {J : σ → P → Prop} {i : ℕ}
  (inv : ∀ {s l t}, Inv s → ok s l → C.step s l = some t → Inv t)
  (read : ∀ {s c x p}, Inv s → s.calls[i]? = some c → J s.db c.pc → ok s (.read i x) →
    C.read s.db c.pc x = some p → J s.db p)
  (commit : ∀ {s c db}, Inv s → s.calls[i]? = some c → J s.db c.pc → ok s (.commit i) →
    C.writes c.pc ≠ [] → C.replay (C.writes c.pc) s.db = some db → J db (C.committed c.pc))
  (rolledBack : ∀ {db p}, J db p → J db (C.rolledBack p))
  (others : ∀ {s c l t}, Inv s → s.calls[i]? = some c → J s.db c.pc → l.of ≠ some i → ok s l →
    C.step s l = some t → J t.db c.pc)
include inv read commit rolledBack others

/-- **The rule for one call**: what its own steps and those of the others keep of where it is. -/
theorem follow {init : σ → Prop} {s t : Sessions σ P E} (hrun : (C.machine init).Run ok s t)
    (hs : Inv s) {c : Session P} (hc : s.calls[i]? = some c) (hJ : J s.db c.pc) :
    Inv t ∧ ∃ d, t.calls[i]? = some d ∧ J t.db d.pc := by
  refine hrun.invariant (I := fun t => Inv t ∧ ∃ d, t.calls[i]? = some d ∧ J t.db d.pc)
    ⟨hs, c, hc, hJ⟩ fun {t l u} ⟨ht, d, hd, hat⟩ hok hstep => ⟨inv ht hok hstep, ?_⟩
  cases call_cases hd hstep with
  | other hl hu => exact ⟨d, hu, others ht hd hat hl hok hstep⟩
  | read hread hdb hu => exact ⟨_, hu, hdb ▸ read ht hd hat hok hread⟩
  | write _ hdb hu => exact ⟨_, hu, hdb ▸ hat⟩
  | commit hne hrep hu => exact ⟨_, hu, commit ht hd hat hok hne hrep⟩
  | rollback hdb hu => exact ⟨_, hu, hdb ▸ rolledBack hat⟩

end Follow

/-! ## A call by itself

`alone` is what a call does if nothing interleaves with it: a program of its inputs, and one that
the machine can be seen to run (`run_alone`). -/

variable (C) in
/-- **A step of a call by itself**: a read, or a whole transaction, rolled back if a statement of it
is rejected.  A call that is over stays where it is. -/
def solo (x : I) (s : σ × P) : σ × P :=
  match C.writes s.2 with
  | [] => (s.1, (C.read s.1 s.2 x).getD s.2)
  | w :: ws => ((C.replay (w :: ws) s.1).map (·, C.committed s.2)).getD (s.1, C.rolledBack s.2)

variable (C) in
/-- **A call by itself**, for as many steps as there are inputs. -/
def alone (xs : List I) (s : σ × P) : σ × P := xs.foldl (fun s x => C.solo x s) s

@[simp] theorem alone_nil (s : σ × P) : C.alone [] s = s := rfl

@[simp] theorem alone_cons (x : I) (xs : List I) (s : σ × P) :
    C.alone (x :: xs) s = C.alone xs (C.solo x s) := rfl

theorem solo_read {x : I} {db : σ} {p p' : P} (hw : C.writes p = [])
    (h : C.read db p x = some p') : C.solo x (db, p) = (db, p') := by
  simp [solo, hw, h]

theorem solo_commit {x : I} {db db' : σ} {p : P} (hw : C.writes p ≠ [])
    (h : C.replay (C.writes p) db = some db') : C.solo x (db, p) = (db', C.committed p) := by
  cases hws : C.writes p with
  | nil => exact absurd hws hw
  | cons w ws =>
    rw [hws] at h
    simp only [solo, hws, h, Option.map_some, Option.getD_some]

/-- A call that has no step left. -/
theorem alone_over {db : σ} {p : P} (hw : C.writes p = []) (hr : ∀ x, C.read db p x = none) :
    ∀ xs, C.alone xs (db, p) = (db, p)
  | [] => rfl
  | x :: xs => by
      rw [alone_cons, show C.solo x (db, p) = (db, p) by simp [solo, hw, hr]]
      exact alone_over hw hr xs

variable (C) in
/-- What a step of a call by itself leaves in the history. -/
def soloEmits (s : σ × P) : List E :=
  match C.writes s.2 with
  | [] => []
  | w :: ws => if (C.replay (w :: ws) s.1).isSome then C.emits s.2 else []

variable (C) in
/-- **What a call by itself leaves in the history.** -/
def emitted : List I → σ × P → List E
  | [], _ => []
  | x :: xs, s => C.soloEmits s ++ emitted xs (C.solo x s)

section Alone

variable {J : σ → List E → P → Prop} {Q : I → Prop}
  (read : ∀ {db hist p x p'}, J db hist p → Q x → C.read db p x = some p' → J db hist p')
  (commit : ∀ {db hist p db'}, J db hist p → C.writes p ≠ [] →
    C.replay (C.writes p) db = some db' → J db' (hist ++ C.emits p) (C.committed p))
  (rolledBack : ∀ {db hist p}, J db hist p → C.writes p ≠ [] → J db hist (C.rolledBack p))
include read commit rolledBack

theorem solo_invariant {x : I} (hx : Q x) {s : σ × P} {hist : List E} (h : J s.1 hist s.2) :
    J (C.solo x s).1 (hist ++ C.soloEmits s) (C.solo x s).2 := by
  rw [solo, soloEmits]
  cases hw : C.writes s.2 with
  | nil =>
    rw [List.append_nil]
    cases hr : C.read s.1 s.2 x with
    | none => exact h
    | some p => exact read h hx hr
  | cons w ws =>
    cases hrep : C.replay (w :: ws) s.1 with
    | none =>
      simp only [hrep, Option.map_none, Option.getD_none, Option.isSome_none, Bool.false_eq_true,
        if_false, List.append_nil]
      exact rolledBack h (by simp [hw])
    | some db =>
      simp only [hrep, Option.map_some, Option.getD_some, Option.isSome_some, if_true]
      exact commit h (by simp [hw]) (hw ▸ hrep)

theorem alone_invariant_from : ∀ {xs : List I} {s : σ × P} {hist : List E}, J s.1 hist s.2 →
    (∀ x ∈ xs, Q x) → J (C.alone xs s).1 (hist ++ C.emitted xs s) (C.alone xs s).2
  | [], s, hist, h, _ => by
      rw [emitted, List.append_nil]
      exact h
  | x :: xs, s, hist, h, hxs => by
      rw [alone_cons, emitted, ← List.append_assoc]
      have hsolo := solo_invariant (J := J) read commit rolledBack (hxs x (List.mem_cons_self ..)) h
      exact alone_invariant_from hsolo
        fun y hy => hxs y (List.mem_cons_of_mem x hy)

/-- **The rule for a call by itself**: what its reads, its commits and its rollbacks preserve of the
database, of what it has left in the history, and of the point it is at. -/
theorem alone_invariant (xs : List I) (s : σ × P) (h : J s.1 [] s.2) (hxs : ∀ x ∈ xs, Q x) :
    J (C.alone xs s).1 (C.emitted xs s) (C.alone xs s).2 :=
  alone_invariant_from (J := J) read commit rolledBack h hxs

end Alone

/-- The statements up to one of a transaction that goes through. -/
theorem replay_take_isSome {ws : List S} {db : σ} (h : (C.replay ws db).isSome) (n : ℕ) :
    (C.replay (ws.take n) db).isSome := by
  induction ws generalizing db n with
  | nil => simp
  | cons w ws ih =>
    cases n with
    | zero => rfl
    | succ n =>
      rw [replay_cons] at h
      obtain ⟨db', h⟩ := Option.isSome_iff_exists.mp h
      obtain ⟨db₁, hw, h⟩ := Option.bind_eq_some_iff.mp h
      rw [List.take_succ_cons, replay_cons, hw]
      exact ih (Option.isSome_of_mem h) n

/-- A call is where it is. -/
theorem set_self {α : Type*} {l : List α} {i : ℕ} {a : α} (h : l[i]? = some a) : l.set i a = l := by
  obtain ⟨hlt, rfl⟩ := List.getElem?_eq_some_iff.mp h
  exact List.set_getElem_self hlt

/-- Executing the statements of a transaction, one after the other. -/
theorem run_writes {init : σ → Prop} {s : Sessions σ P E} {i : ℕ} {p : P} {n : ℕ}
    (hc : s.calls[i]? = some ⟨p, 0⟩) (h : (C.replay (C.writes p) s.db).isSome)
    (hn : n ≤ (C.writes p).length) :
    (C.machine init).Run Machine.free s { s with calls := s.calls.set i ⟨p, n⟩ } := by
  have hlt := (List.getElem?_eq_some_iff.mp hc).1
  induction n with
  | zero =>
    rw [set_self hc]
    exact .refl
  | succ n ih =>
    refine (ih (Nat.le_of_succ_le hn)).tail (l := .write i) trivial ?_
    have htake := replay_take_isSome h (n + 1)
    simp only [machine, step, List.getElem?_set_self hlt, Option.bind_some, htake, and_true,
      show n < (C.writes p).length from hn, if_true, List.set_set]

theorem run_solo {init : σ → Prop} {s : Sessions σ P E} {i : ℕ} {p : P} (x : I)
    (hc : s.calls[i]? = some ⟨p, 0⟩) : ∃ t, (C.machine init).Run Machine.free s t
      ∧ t.db = (C.solo x (s.db, p)).1
      ∧ t.calls = s.calls.set i ⟨(C.solo x (s.db, p)).2, 0⟩ := by
  have hlt := (List.getElem?_eq_some_iff.mp hc).1
  cases hw : C.writes p with
  | nil =>
    cases hr : C.read s.db p x with
    | none => exact ⟨s, .refl, by simp [solo, hw], by simp [solo, hw, hr, set_self hc]⟩
    | some p' =>
      refine ⟨moveTo s i p', .single (l := .read i x) trivial ?_, by simp [solo, hw],
        by simp [solo, hw, hr, moveTo]⟩
      simp [machine, step, hc, hr]
  | cons w ws =>
    cases hrep : C.replay (w :: ws) s.db with
    | none =>
      refine ⟨moveTo s i (C.rolledBack p), .single (l := .rollback i) trivial ?_,
        by simp only [solo, hw, hrep]; rfl, by simp only [solo, hw, hrep]; rfl⟩
      simp [machine, step, hc]
    | some db =>
      have hsome : (C.replay (C.writes p) s.db).isSome := by rw [hw, hrep]; rfl
      have hlen : 0 < (C.writes p).length := by simp [hw]
      have hwrites : (C.machine init).Run Machine.free s _ := run_writes hc hsome (Nat.le_refl _)
      refine ⟨moveTo { s with db := db, history := s.history ++ C.emits p } i (C.committed p),
        hwrites.tail (l := .commit i) trivial ?_, by simp only [solo, hw, hrep]; rfl,
        by simp only [solo, hw, hrep]; rfl⟩
      simp only [machine, step, List.getElem?_set_self hlt, Option.bind_some, hlen, true_and,
        if_true, moveTo, List.set_set]
      rw [hw, hrep, Option.map_some]

/-- **The machine runs a call by itself**: from any state in which the call is not in a transaction,
to one in which the other calls are where they were. -/
theorem run_alone {init : σ → Prop} {i : ℕ} (xs : List I) : ∀ {s : Sessions σ P E} {p : P},
    s.calls[i]? = some ⟨p, 0⟩ → ∃ t, (C.machine init).Run Machine.free s t
      ∧ t.db = (C.alone xs (s.db, p)).1
      ∧ t.calls = s.calls.set i ⟨(C.alone xs (s.db, p)).2, 0⟩ := by
  induction xs with
  | nil => exact fun {s p} hc => ⟨s, .refl, rfl, (set_self hc).symm⟩
  | cons x xs ih =>
    intro s p hc
    obtain ⟨t, hrun, hdb, hcalls⟩ := run_solo x hc
    have hlt := (List.getElem?_eq_some_iff.mp hc).1
    obtain ⟨u, hrun', hdb', hcalls'⟩ := ih (hcalls ▸ List.getElem?_set_self hlt)
    rw [hdb] at hdb' hcalls'
    refine ⟨u, hrun.trans hrun', hdb', ?_⟩
    rw [hcalls', hcalls, List.set_set]
    rfl

/-! ## The proof rule -/

variable (C) in
/-- **A proof outline**: an invariant of the committed database and its history, and an assertion at
each program point, such that each step of a call re-establishes its own assertion and a commit
disturbs no other call's. -/
structure Outline (ok : Sessions σ P E → Label P I X → Prop) where
  Inv : σ → List E → Prop
  At : σ → List E → P → Prop
  entry : ∀ {db hist p}, Inv db hist → C.entry p = true → At db hist p
  read : ∀ {db hist p x p'}, Inv db hist → At db hist p → C.read db p x = some p' → At db hist p'
  rolledBack : ∀ {db hist p}, Inv db hist → At db hist p → At db hist (C.rolledBack p)
  commit : ∀ {s : Sessions σ P E} {i c db}, ok s (.commit i) → Inv s.db s.history →
    At s.db s.history c.pc → s.calls[i]? = some c → C.writes c.pc ≠ [] →
    C.replay (C.writes c.pc) s.db = some db →
    Inv db (s.history ++ C.emits c.pc) ∧ At db (s.history ++ C.emits c.pc) (C.committed c.pc)
      ∧ ∀ j d, j ≠ i → s.calls[j]? = some d → At s.db s.history d.pc →
          At db (s.history ++ C.emits c.pc) d.pc
  outside : ∀ {s : Sessions σ P E} {x db}, ok s (.outside x) → Inv s.db s.history →
    C.outside x s.db = some db →
    Inv db s.history ∧ ∀ c ∈ s.calls, At s.db s.history c.pc → At db s.history c.pc

namespace Outline

variable {ok : Sessions σ P E → Label P I X → Prop} (O : C.Outline ok)

/-- The outline holds in a state: the invariant, and each call's assertion. -/
def Holds (s : Sessions σ P E) : Prop :=
  O.Inv s.db s.history ∧ ∀ c ∈ s.calls, O.At s.db s.history c.pc

variable {O}

theorem Holds.inv {s : Sessions σ P E} (h : O.Holds s) : O.Inv s.db s.history := h.1

theorem Holds.at {s : Sessions σ P E} (h : O.Holds s) {i : ℕ} {c : Session P}
    (hc : s.calls[i]? = some c) : O.At s.db s.history c.pc := h.2 c (List.mem_of_getElem? hc)

/-- Moving one call to a point where its assertion holds. -/
theorem Holds.moveTo {s : Sessions σ P E} (h : O.Holds s) {i : ℕ} {p : P}
    (hp : O.At s.db s.history p) : O.Holds (moveTo s i p) := by
  refine ⟨h.1, fun c hc => ?_⟩
  rcases mem_set_cases hc with rfl | ⟨j, -, hj⟩
  · exact hp
  · exact h.at hj

/-- **The step lemma**: a step that meets the run's condition keeps the outline. -/
theorem Holds.step {s t : Sessions σ P E} {l : Label P I X} (h : O.Holds s) (hok : ok s l)
    (hstep : C.step s l = some t) : O.Holds t := by
  cases step_cases hstep with
  | call hp =>
    refine ⟨h.1, fun c hc => ?_⟩
    rcases List.mem_append.mp hc with hc | hc
    · exact h.2 c hc
    · obtain rfl := List.mem_singleton.mp hc
      exact O.entry h.1 hp
  | read hc h0 hp => exact h.moveTo (O.read h.1 (h.at hc) hp)
  | write hc hlt hrep =>
    refine ⟨h.1, fun c hc' => ?_⟩
    have hown := h.at hc
    rcases mem_set_cases hc' with rfl | ⟨j, -, hj⟩
    · exact hown
    · exact h.at hj
  | commit hc hpos hall hrep =>
    have hne := List.ne_nil_of_length_pos (hall ▸ hpos)
    obtain ⟨hinv, hat, hothers⟩ := O.commit hok h.1 (h.at hc) hc hne hrep
    refine ⟨hinv, fun d hd => ?_⟩
    rcases mem_set_cases hd with rfl | ⟨j, hj, hd⟩
    · exact hat
    · exact hothers j d hj hd (h.at hd)
  | rollback hc => exact h.moveTo (O.rolledBack h.1 (h.at hc))
  | outside hx =>
    obtain ⟨hinv, hat⟩ := O.outside hok h.1 hx
    exact ⟨hinv, fun c hc => hat c hc (h.2 c hc)⟩

/-- **The run lemma.** -/
theorem Holds.run {init : σ → Prop} {s t : Sessions σ P E} (h : O.Holds s)
    (hrun : (C.machine init).Run ok s t) : O.Holds t :=
  hrun.invariant h fun ht hok hs => ht.step hok hs

/-- From initial databases that satisfy the invariant, the outline holds in every state. -/
theorem holds_of_reachable {init : σ → Prop} (hinit : ∀ db, init db → O.Inv db [])
    {s : Sessions σ P E} (h : (C.machine init).Reachable ok s) : O.Holds s :=
  h.invariant (fun {s} ⟨hdb, hh, hc⟩ => ⟨by rw [hh]; exact hinit _ hdb, by simp [hc]⟩)
    fun ht hok hs => ht.step hok hs

/-- **What a step does to the database**, in a state where the outline holds: nothing, or a commit
of a call at its assertion, or a change from outside. -/
theorem Holds.db_cases {s t : Sessions σ P E} {l : Label P I X} (h : O.Holds s)
    (hstep : C.step s l = some t) :
    t.db = s.db ∨
      (∃ i c, l = .commit i ∧ s.calls[i]? = some c ∧ O.At s.db s.history c.pc ∧
        C.writes c.pc ≠ [] ∧ C.replay (C.writes c.pc) s.db = some t.db) ∨
      ∃ x, l = .outside x ∧ C.outside x s.db = some t.db := by
  cases step_cases hstep with
  | call | read | write | rollback => exact .inl rfl
  | commit hc hpos hall hrep =>
    exact .inr (.inl ⟨_, _, rfl, hc, h.at hc, List.ne_nil_of_length_pos (hall ▸ hpos), hrep⟩)
  | outside hx => exact .inr (.inr ⟨_, rfl, hx⟩)

end Outline

end Code
