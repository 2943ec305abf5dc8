import Mathlib.Data.List.Basic

/-!
# Machinery/Retry — a bounded loop of attempts

An attempt either succeeds, which ends the loop, or throws; what it threw decides between giving up
and another attempt.  The outcome keeps every attempt made.  `Made` says which attempts those are and
from which state each starts, and the rules below read the outcome off the attempts made.
-/

namespace Retry

variable {σ ε α β : Type*}

/-- The attempts made, in order, the answer, and the state afterwards. -/
structure Outcome (σ ε α β : Type*) where
  attempts : List (Except ε α)
  answer : Except β α
  state : σ

section Loop

variable (attempt : ℕ → σ → Except ε α × σ) (giveUp : ℕ → ε → Option β) (exhausted : β)

/-- **The loop**: at most so many attempts, numbered from `n`. -/
def loop : ℕ → ℕ → σ → Outcome σ ε α β
  | 0, _, s => ⟨[], .error exhausted, s⟩
  | m + 1, n, s =>
    match attempt n s with
    | (.ok a, s') => ⟨[.ok a], .ok a, s'⟩
    | (.error e, s') =>
      match giveUp n e with
      | some b => ⟨[.error e], .error b, s'⟩
      | none =>
        let rest := loop m (n + 1) s'
        ⟨.error e :: rest.attempts, rest.answer, rest.state⟩

/-- Attempt `k` is made, from state `t`. -/
inductive Made : ℕ → ℕ → σ → ℕ → σ → Prop
  | here {m n s} : Made (m + 1) n s n s
  | later {m n s e s' k t} (h : attempt n s = (.error e, s')) (hgo : giveUp n e = none)
      (hmade : Made m (n + 1) s' k t) : Made (m + 1) n s k t

variable {attempt giveUp exhausted}

/-! ## The equations of the loop -/

theorem loop_ok {m n : ℕ} {s s' : σ} {a : α} (h : attempt n s = (.ok a, s')) :
    loop attempt giveUp exhausted (m + 1) n s = ⟨[.ok a], .ok a, s'⟩ := by
  simp only [loop, h]

theorem loop_giveUp {m n : ℕ} {s s' : σ} {e : ε} {b : β} (h : attempt n s = (.error e, s'))
    (hstop : giveUp n e = some b) :
    loop attempt giveUp exhausted (m + 1) n s = ⟨[.error e], .error b, s'⟩ := by
  simp only [loop, h, hstop]

theorem loop_again {m n : ℕ} {s s' : σ} {e : ε} (h : attempt n s = (.error e, s'))
    (hgo : giveUp n e = none) :
    loop attempt giveUp exhausted (m + 1) n s =
      ⟨.error e :: (loop attempt giveUp exhausted m (n + 1) s').attempts,
        (loop attempt giveUp exhausted m (n + 1) s').answer,
        (loop attempt giveUp exhausted m (n + 1) s').state⟩ := by
  simp only [loop, h, hgo]

variable (attempt giveUp) in
/-- An attempt succeeds, is given up, or is followed by another one. -/
theorem attempt_cases (n : ℕ) (s : σ) :
    (∃ a s', attempt n s = (.ok a, s'))
      ∨ (∃ e s' b, attempt n s = (.error e, s') ∧ giveUp n e = some b)
      ∨ ∃ e s', attempt n s = (.error e, s') ∧ giveUp n e = none := by
  rcases h : attempt n s with ⟨_ | a, s'⟩
  · rename_i e
    cases hg : giveUp n e with
    | none => exact .inr (.inr ⟨e, s', rfl, hg⟩)
    | some b => exact .inr (.inl ⟨e, s', b, rfl, hg⟩)
  · exact .inl ⟨a, s', rfl⟩

/-! ## The attempts made -/

theorem Made.bounds {m n k : ℕ} {s t : σ} (h : Made attempt giveUp m n s k t) :
    n ≤ k ∧ k < n + m := by
  induction h with
  | here => omega
  | later _ _ _ ih => omega

variable (exhausted) in
/-- An attempt that is given up ends the loop with its answer. -/
theorem Made.stops {m n k : ℕ} {s t t' : σ} {e : ε} {b : β} (h : Made attempt giveUp m n s k t)
    (ht : attempt k t = (.error e, t')) (hstop : giveUp k e = some b) :
    (loop attempt giveUp exhausted m n s).answer = .error b
      ∧ (loop attempt giveUp exhausted m n s).attempts.length = k - n + 1 := by
  induction h with
  | here => rw [loop_giveUp ht hstop]; simp
  | later h hgo hmade ih =>
    obtain ⟨hanswer, hlength⟩ := ih ht hstop
    have := hmade.bounds
    rw [loop_again h hgo]
    refine ⟨hanswer, ?_⟩
    rw [List.length_cons, hlength]
    omega

/-- An attempt that is not given up is followed by another, as long as there is one left. -/
theorem Made.again {m n k : ℕ} {s t t' : σ} {e : ε} (h : Made attempt giveUp m n s k t)
    (ht : attempt k t = (.error e, t')) (hgo : giveUp k e = none) (hlt : k + 1 < n + m) :
    Made attempt giveUp m n s (k + 1) t' := by
  induction h with
  | @here m n s =>
    obtain ⟨m', rfl⟩ : ∃ m', m = m' + 1 := ⟨m - 1, by omega⟩
    exact .later ht hgo .here
  | later h hgo' _ ih => exact .later h hgo' (ih ht hgo (by omega))

variable (exhausted) in
/-- An attempt that is made is in the outcome. -/
theorem Made.attempts {m n k : ℕ} {s t : σ} (h : Made attempt giveUp m n s k t) :
    (loop attempt giveUp exhausted m n s).attempts[k - n]? = some (attempt k t).1 := by
  induction h with
  | @here m n s =>
    rcases attempt_cases attempt giveUp n s with
      ⟨a, s', h⟩ | ⟨e, s', b, h, hstop⟩ | ⟨e, s', h, hgo⟩
    · rw [loop_ok h, h]; simp
    · rw [loop_giveUp h hstop, h]; simp
    · rw [loop_again h hgo, h]; simp
  | @later m n s e s' k t h hgo hmade ih =>
    have := hmade.bounds
    rw [loop_again h hgo, show k - n = (k - (n + 1)) + 1 by omega, List.getElem?_cons_succ]
    exact ih

/-- Every attempt in the outcome was made. -/
theorem made_of_attempts : ∀ {m n i : ℕ} {s : σ} {r : Except ε α},
    (loop attempt giveUp exhausted m n s).attempts[i]? = some r →
      ∃ t, Made attempt giveUp m n s (n + i) t ∧ (attempt (n + i) t).1 = r
  | 0, _, _, _, _, h => by simp [loop] at h
  | m + 1, n, i, s, r, h => by
      rcases attempt_cases attempt giveUp n s with
        ⟨a, s', hs⟩ | ⟨e, s', b, hs, hstop⟩ | ⟨e, s', hs, hgo⟩
      · rw [loop_ok hs] at h
        cases i with
        | zero => exact ⟨s, .here, by rw [Nat.add_zero, hs]; simpa using h⟩
        | succ i => simp at h
      · rw [loop_giveUp hs hstop] at h
        cases i with
        | zero => exact ⟨s, .here, by rw [Nat.add_zero, hs]; simpa using h⟩
        | succ i => simp at h
      · rw [loop_again hs hgo] at h
        cases i with
        | zero => exact ⟨s, .here, by rw [Nat.add_zero, hs]; simpa using h⟩
        | succ i =>
          obtain ⟨t, hmade, ht⟩ := made_of_attempts (i := i) (by simpa using h)
          rw [show n + 1 + i = n + (i + 1) by omega] at hmade ht
          exact ⟨t, .later hs hgo hmade, ht⟩

/-- An answer that is an error was given by an attempt, or the attempts are exhausted. -/
theorem answer_error : ∀ {m n : ℕ} {s : σ} {b : β},
    (loop attempt giveUp exhausted m n s).answer = .error b →
      (∃ k t e t', Made attempt giveUp m n s k t ∧ attempt k t = (.error e, t')
          ∧ giveUp k e = some b)
        ∨ (b = exhausted ∧ (loop attempt giveUp exhausted m n s).attempts.length = m)
  | 0, _, _, _, h => by
      obtain rfl := Except.error.inj h
      exact .inr ⟨rfl, rfl⟩
  | m + 1, n, s, b, h => by
      rcases attempt_cases attempt giveUp n s with
        ⟨a, s', hs⟩ | ⟨e, s', b', hs, hstop⟩ | ⟨e, s', hs, hgo⟩
      · rw [loop_ok hs] at h
        cases h
      · rw [loop_giveUp hs hstop] at h
        obtain rfl := Except.error.inj h
        exact .inl ⟨n, s, e, s', .here, hs, hstop⟩
      · rw [loop_again hs hgo] at h ⊢
        rcases answer_error (m := m) h with ⟨k, t, e', t', hmade, ht, hstop⟩ | ⟨hb, hlen⟩
        · exact .inl ⟨k, t, e', t', .later hs hgo hmade, ht, hstop⟩
        · exact .inr ⟨hb, by rw [List.length_cons, hlen]⟩

/-! ## Successes and the state -/

/-- **At most one attempt succeeds**, the one that is answered. -/
theorem successes : ∀ (m n : ℕ) (s : σ),
    (loop attempt giveUp exhausted m n s).attempts.filterMap Except.toOption =
      (loop attempt giveUp exhausted m n s).answer.toOption.toList
  | 0, _, _ => rfl
  | m + 1, n, s => by
      rcases attempt_cases attempt giveUp n s with
        ⟨a, s', hs⟩ | ⟨e, s', b', hs, hstop⟩ | ⟨e, s', hs, hgo⟩
      · rw [loop_ok hs]
        rfl
      · rw [loop_giveUp hs hstop]
        rfl
      · rw [loop_again hs hgo]
        exact successes m (n + 1) s'

/-- What happens to the state besides the attempts, over a number of them. -/
def meanwhile (f : ℕ → σ → σ) : ℕ → ℕ → σ → σ
  | 0, _, s => s
  | m + 1, n, s => meanwhile f m (n + 1) (f n s)

variable (attempt giveUp exhausted) in
/-- **A failed attempt leaves nothing**: if it leaves what happened meanwhile, and a success applies
its own effect to that, then so does the loop. -/
theorem state_eq {f : ℕ → σ → σ} {g : α → σ → Option σ}
    (hfail : ∀ n s e s', attempt n s = (.error e, s') → s' = f n s)
    (hok : ∀ n s a s', attempt n s = (.ok a, s') → g a (f n s) = some s') :
    ∀ (m n : ℕ) (s : σ),
      (loop attempt giveUp exhausted m n s).answer.toOption.elim some g
          (meanwhile f (loop attempt giveUp exhausted m n s).attempts.length n s) =
        some (loop attempt giveUp exhausted m n s).state
  | 0, _, _ => rfl
  | m + 1, n, s => by
      rcases attempt_cases attempt giveUp n s with
        ⟨a, s', hs⟩ | ⟨e, s', b', hs, hstop⟩ | ⟨e, s', hs, hgo⟩
      · rw [loop_ok hs]
        exact hok n s a s' hs
      · rw [loop_giveUp hs hstop]
        exact congrArg some (hfail n s e s' hs).symm
      · rw [loop_again hs hgo, List.length_cons, meanwhile, ← hfail n s e s' hs]
        exact state_eq hfail hok m (n + 1) s'

end Loop

end Retry
