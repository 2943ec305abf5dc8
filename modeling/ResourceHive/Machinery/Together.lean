import ResourceHive.Machinery.Transactions

/-!
# Machinery/Together — two services over one database

The calls of two programs interleave over one committed database (`Code.together`).  Two rules carry
results to the pair:

* `Both.run_invariant` — what every commit and every change from outside preserves, of either;
* `Both.left_run` — if the second program only commits changes that the first takes for changes from
  outside, then a run of the pair, seen by the first, is one of its own runs.
-/

namespace Code

variable {σ P S I X E Q T J Y F : Type*}

/-- One database, and the calls of two programs. -/
structure Both (σ P E Q F : Type*) where
  db : σ
  history : List E
  calls : List (Session P)
  history' : List F
  calls' : List (Session Q)

namespace Both

/-- What the first program has of it. -/
def left (s : Both σ P E Q F) : Sessions σ P E := ⟨s.db, s.history, s.calls⟩

/-- What the second program has of it. -/
def right (s : Both σ P E Q F) : Sessions σ Q F := ⟨s.db, s.history', s.calls'⟩

def withLeft (s : Both σ P E Q F) (t : Sessions σ P E) : Both σ P E Q F :=
  { s with db := t.db, history := t.history, calls := t.calls }

def withRight (s : Both σ P E Q F) (t : Sessions σ Q F) : Both σ P E Q F :=
  { s with db := t.db, history' := t.history, calls' := t.calls }

@[simp] theorem left_db (s : Both σ P E Q F) : s.left.db = s.db := rfl

@[simp] theorem right_db (s : Both σ P E Q F) : s.right.db = s.db := rfl

@[simp] theorem left_withLeft (s : Both σ P E Q F) (t : Sessions σ P E) :
    (s.withLeft t).left = t := rfl

@[simp] theorem left_withRight (s : Both σ P E Q F) (t : Sessions σ Q F) :
    (s.withRight t).left = { s.left with db := t.db } := rfl

@[simp] theorem withLeft_db (s : Both σ P E Q F) (t : Sessions σ P E) :
    (s.withLeft t).db = t.db := rfl

@[simp] theorem withRight_db (s : Both σ P E Q F) (t : Sessions σ Q F) :
    (s.withRight t).db = t.db := rfl

end Both

/-- **Two programs over one database.** -/
def together (C : Code σ P S I X E) (D : Code σ Q T J Y F) (init : σ → Prop) :
    Machine (Both σ P E Q F) (Label P I X ⊕ Label Q J Y) where
  init s := init s.db ∧ s.history = [] ∧ s.calls = [] ∧ s.history' = [] ∧ s.calls' = []
  step s
    | .inl l => (C.step s.left l).map s.withLeft
    | .inr l => (D.step s.right l).map s.withRight

variable {C : Code σ P S I X E} {D : Code σ Q T J Y F} {init init' : σ → Prop}
  {s t : Both σ P E Q F} {l : Label P I X ⊕ Label Q J Y}

/-- What a step does to the database: nothing, a commit, or a change from outside. -/
theorem db_cases {s t : Sessions σ P E} {l : Label P I X} (h : C.step s l = some t) :
    t.db = s.db ∨ (∃ p, C.writes p ≠ [] ∧ C.replay (C.writes p) s.db = some t.db) ∨
      ∃ x, l = .outside x ∧ C.outside x s.db = some t.db := by
  cases step_cases h with
  | call | read | write | rollback => exact .inl rfl
  | commit _ hpos hall hrep =>
    exact .inr (.inl ⟨_, List.ne_nil_of_length_pos (hall ▸ hpos), hrep⟩)
  | outside hx => exact .inr (.inr ⟨_, rfl, hx⟩)

/-- **The rule for a property of the database.** -/
theorem Both.run_invariant {ok : Both σ P E Q F → Label P I X ⊕ Label Q J Y → Prop} {V : σ → Prop}
    (h : (C.together D init).Run ok s t) (start : V s.db)
    (commit : ∀ {p db db'}, V db → C.replay (C.writes p) db = some db' → V db')
    (commit' : ∀ {q db db'}, D.writes q ≠ [] → V db → D.replay (D.writes q) db = some db' → V db')
    (outside : ∀ {s x db'}, ok s (.inl (.outside x)) → V s.db → C.outside x s.db = some db' → V db')
    (outside' : ∀ {s y db'}, ok s (.inr (.outside y)) → V s.db → D.outside y s.db = some db' →
      V db') : V t.db := by
  refine h.invariant (I := fun s => V s.db) start fun {s l t} hv hok hstep => ?_
  cases l with
  | inl l =>
    obtain ⟨u, hu, rfl⟩ := Option.map_eq_some_iff.mp hstep
    rcases db_cases hu with hdb | ⟨p, -, hrep⟩ | ⟨x, rfl, hx⟩
    · rw [Both.withLeft_db, hdb]
      exact hv
    · exact commit hv hrep
    · exact outside hok hv hx
  | inr l =>
    obtain ⟨u, hu, rfl⟩ := Option.map_eq_some_iff.mp hstep
    rcases db_cases hu with hdb | ⟨q, hne, hrep⟩ | ⟨y, rfl, hy⟩
    · rw [Both.withRight_db, hdb]
      exact hv
    · exact commit' hne hv hrep
    · exact outside' hok hv hy

/-- **What the first program sees of a run is a run of its own**, if it takes what the second one
does for changes from outside. -/
theorem Both.left_run {ok : Both σ P E Q F → Label P I X ⊕ Label Q J Y → Prop}
    (commit : ∀ {q db db'}, D.writes q ≠ [] → D.replay (D.writes q) db = some db' →
      ∃ x, C.outside x db = some db')
    (outside : ∀ {y db db'}, D.outside y db = some db' → ∃ x, C.outside x db = some db')
    (h : (C.together D init).Run ok s t) : (C.machine init').Run Machine.free s.left t.left := by
  refine h.invariant (I := fun t => (C.machine init').Run Machine.free s.left t.left) .refl
    fun {t l u} hrun _ hstep => ?_
  have hchange : ∀ {v : Sessions σ Q F}, (∃ x, C.outside x t.db = some v.db) →
      (C.machine init').Run Machine.free s.left (t.withRight v).left := by
    rintro v ⟨x, hx⟩
    refine hrun.trans (.single (l := .outside x) trivial ?_)
    simp [machine, step, hx]
  cases l with
  | inl l =>
    obtain ⟨v, hv, rfl⟩ := Option.map_eq_some_iff.mp hstep
    exact hrun.trans (.single trivial hv)
  | inr l =>
    obtain ⟨v, hv, rfl⟩ := Option.map_eq_some_iff.mp hstep
    rcases db_cases hv with hdb | ⟨q, hne, hrep⟩ | ⟨y, -, hy⟩
    · rw [Both.left_withRight, hdb]
      exact hrun
    · exact hchange (commit hne hrep)
    · exact hchange (outside hy)

end Code
