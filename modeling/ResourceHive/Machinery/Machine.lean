import Mathlib.Data.List.Basic

/-!
# Machinery/Machine — labelled machines, and what every run of one keeps

A step is a *function* of the state and a label: the label names the step and carries each value the
stepping program does not choose itself (a clock reading, a fresh identifier, which party moves).
A run is then a list of labels that can be evaluated (`Machine.exec`), and "for every interleaving"
is "for every list of labels".

Runs carry a condition `ok` on the state before each step, so that a property which holds only as
long as some branch is not taken is still a property of whole runs (`Machine.Run.invariant`).
-/

/-- A machine: the states it may start in, and its step; `none` where the step cannot be taken. -/
structure Machine (σ ℓ : Type*) where
  init : σ → Prop
  step : σ → ℓ → Option σ

namespace Machine

variable {σ ℓ : Type*} {M : Machine σ ℓ} {ok ok' : σ → ℓ → Prop}

/-- The condition every step meets. -/
abbrev free : σ → ℓ → Prop := fun _ _ => True

/-- **A run** from `s`, each of whose steps meets `ok` in the state it is taken from. -/
inductive Run (M : Machine σ ℓ) (ok : σ → ℓ → Prop) (s : σ) : σ → Prop
  | refl : Run M ok s s
  | tail {t u : σ} {l : ℓ} : Run M ok s t → ok t l → M.step t l = some u → Run M ok s u

/-- The states some run from an initial state ends in. -/
def Reachable (M : Machine σ ℓ) (ok : σ → ℓ → Prop) (t : σ) : Prop :=
  ∃ s, M.init s ∧ M.Run ok s t

theorem Run.single {s t : σ} {l : ℓ} (hok : ok s l) (h : M.step s l = some t) : M.Run ok s t :=
  .tail .refl hok h

theorem Run.trans {s t u : σ} (h : M.Run ok s t) (h' : M.Run ok t u) : M.Run ok s u := by
  induction h' with
  | refl => exact h
  | tail _ hok hs ih => exact ih.tail hok hs

theorem Run.mono (himp : ∀ s l, ok s l → ok' s l) {s t : σ} (h : M.Run ok s t) :
    M.Run ok' s t := by
  induction h with
  | refl => exact .refl
  | tail _ hok hs ih => exact ih.tail (himp _ _ hok) hs

/-- **The invariant rule**: what holds at the start and survives each step holds at the end. -/
theorem Run.invariant {I : σ → Prop} {s t : σ} (h : M.Run ok s t) (start : I s)
    (step : ∀ {t l u}, I t → ok t l → M.step t l = some u → I u) : I t := by
  induction h with
  | refl => exact start
  | tail _ hok hs ih => exact step ih hok hs

/-- **The stability rule**: a preorder that every step respects relates the two ends of a run, under
an invariant of the run. -/
theorem Run.stable {I : σ → Prop} {R : σ → σ → Prop} {s t : σ} (h : M.Run ok s t) (start : I s)
    (inv : ∀ {t l u}, I t → ok t l → M.step t l = some u → I u) (refl : ∀ s, R s s)
    (trans : ∀ {s t u}, R s t → R t u → R s u)
    (step : ∀ {t l u}, I t → ok t l → M.step t l = some u → R t u) : R s t := by
  have key : I t ∧ R s t := by
    induction h with
    | refl => exact ⟨start, refl s⟩
    | tail _ hok hs ih => exact ⟨inv ih.1 hok hs, trans ih.2 (step ih.1 hok hs)⟩
  exact key.2

/-- The invariant rule from the initial states. -/
theorem Reachable.invariant {I : σ → Prop} {t : σ} (h : M.Reachable ok t)
    (start : ∀ {s}, M.init s → I s)
    (step : ∀ {t l u}, I t → ok t l → M.step t l = some u → I u) : I t := by
  obtain ⟨s, hs, hrun⟩ := h
  exact hrun.invariant (start hs) step

theorem Reachable.run {s t : σ} (h : M.Reachable ok s) (h' : M.Run ok s t) : M.Reachable ok t := by
  obtain ⟨s₀, hs₀, hrun⟩ := h
  exact ⟨s₀, hs₀, hrun.trans h'⟩

theorem Reachable.mono (himp : ∀ s l, ok s l → ok' s l) {t : σ} (h : M.Reachable ok t) :
    M.Reachable ok' t := by
  obtain ⟨s, hs, hrun⟩ := h
  exact ⟨s, hs, hrun.mono himp⟩

/-- The state after a list of labels; `none` as soon as one of them cannot be taken. -/
def exec (M : Machine σ ℓ) (s : σ) : List ℓ → Option σ
  | [] => some s
  | l :: ls => (M.step s l).bind fun t => M.exec t ls

theorem exec_append (M : Machine σ ℓ) {s : σ} (ls ms : List ℓ) :
    M.exec s (ls ++ ms) = (M.exec s ls).bind fun t => M.exec t ms := by
  induction ls generalizing s with
  | nil => rfl
  | cons l ls ih =>
    rw [List.cons_append, exec, exec]
    cases M.step s l with
    | none => rfl
    | some t => exact ih

/-- A list of labels that can be taken is a run. -/
theorem run_of_exec : ∀ {s t : σ} (ls : List ℓ), M.exec s ls = some t → M.Run free s t
  | s, _, [], h => by
      obtain rfl : s = _ := Option.some.inj h
      exact .refl
  | s, _, l :: ls, h => by
      obtain ⟨u, hu, hls⟩ := Option.bind_eq_some_iff.mp h
      exact (Run.single trivial hu).trans (run_of_exec ls hls)

/-- A list of labels evaluated to a state with a decidable property is a run to such a state. -/
theorem exists_run {p : σ → Bool} {s : σ} (ls : List ℓ) (h : (M.exec s ls).any p = true) :
    ∃ t, M.Run free s t ∧ p t = true := by
  cases ht : M.exec s ls with
  | none => simp [ht] at h
  | some t => exact ⟨t, run_of_exec ls ht, by simpa [ht] using h⟩

theorem exists_reachable {p : σ → Bool} {s : σ} (ls : List ℓ) (hs : M.init s)
    (h : (M.exec s ls).any p = true) : ∃ t, M.Reachable free t ∧ p t = true := by
  obtain ⟨t, hrun, hp⟩ := exists_run ls h
  exact ⟨t, ⟨s, hs, hrun⟩, hp⟩

/-- The machine that takes only the steps meeting a decidable condition, so that a run under the
condition can be evaluated. -/
def guarded (M : Machine σ ℓ) (p : σ → ℓ → Bool) : Machine σ ℓ where
  init := M.init
  step s l := if p s l then M.step s l else none

/-- …its runs being the runs under the condition. -/
theorem run_of_guarded {p : σ → ℓ → Bool} {s t : σ} (h : (M.guarded p).Run free s t) :
    M.Run (fun s l => p s l = true) s t := by
  induction h with
  | refl => exact .refl
  | tail _ _ hstep ih =>
    simp only [guarded, Option.ite_none_right_eq_some] at hstep
    exact ih.tail hstep.1 hstep.2

/-- A list of labels evaluated under a condition is a run under the condition. -/
theorem exists_run_guarded {p : σ → ℓ → Bool} {q : σ → Bool} {s : σ} (ls : List ℓ)
    (h : ((M.guarded p).exec s ls).any q = true) :
    ∃ t, M.Run (fun s l => p s l = true) s t ∧ q t = true := by
  obtain ⟨t, hrun, hq⟩ := (M.guarded p).exists_run ls h
  exact ⟨t, run_of_guarded hrun, hq⟩

theorem exists_reachable_guarded {p : σ → ℓ → Bool} {q : σ → Bool} {s : σ} (ls : List ℓ)
    (hs : M.init s) (h : ((M.guarded p).exec s ls).any q = true) :
    ∃ t, M.Reachable (fun s l => p s l = true) t ∧ q t = true := by
  obtain ⟨t, hrun, hq⟩ := M.exists_run_guarded ls h
  exact ⟨t, ⟨s, hs, hrun⟩, hq⟩

end Machine
