import Mathlib.Data.List.Count
import Mathlib.Data.List.Induction
import Mathlib.Data.List.Perm.Basic
import Mathlib.Data.List.Sort
import Mathlib.Data.Prod.Lex

/-!
# Machinery/Paging — pages of a query that does not order its rows totally

A query sorts its rows by a key and returns one page of them, and where rows share a key, each
execution is free to put them in an order of its own (`Answer`).  So pages of one result may be pages
of different orders (`Fetched`): they may repeat a row and leave another out.

Up to a position that no rows with one key lie on both sides of, all orders have the same rows
(`Answer.take_perm`).  Fetched pages are therefore the whole result, whatever the orders, exactly if
no page ends between two rows with one key (`pages_complete_iff`).  Such an order stays one when its
rows are sorted by another key, by the two together (`Answer.insertionSort`).
-/

namespace Paging

variable {α κ : Type*}

/-! ## Pages -/

/-- The `k`-th page of `n` rows, counted from 0. -/
def page (l : List α) (n k : ℕ) : List α := (l.drop (k * n)).take n

/-- `Math.ceil(total / n)` -/
def pageCount (total n : ℕ) : ℕ := (total + n - 1) / n

theorem take_succ (l : List α) (n k : ℕ) :
    l.take ((k + 1) * n) = l.take (k * n) ++ page l n k := by
  rw [Nat.succ_mul, List.take_add, page]

/-- The first pages are the first rows. -/
theorem flatMap_page (l : List α) (n m : ℕ) :
    (List.range m).flatMap (page l n) = l.take (m * n) := by
  induction m with
  | zero => simp
  | succ m ih => rw [List.range_succ, List.flatMap_append, ih, take_succ]; simp

theorem le_pageCount_mul {n : ℕ} (hn : 0 < n) (total : ℕ) : total ≤ pageCount total n * n := by
  have hdiv := Nat.div_add_mod (total + n - 1) n
  have hmod := Nat.mod_lt (total + n - 1) hn
  rw [Nat.mul_comm] at hdiv
  rw [pageCount]
  omega

/-- **The pages of a list are the list.** -/
theorem flatMap_pages {n : ℕ} (hn : 0 < n) (l : List α) :
    (List.range (pageCount l.length n)).flatMap (page l n) = l := by
  rw [flatMap_page, List.take_of_length_le (le_pageCount_mul hn l.length)]

/-! ## Sorted lists -/

variable [LinearOrder κ] {key : α → κ} {rows l l' : List α} {m n k : ℕ}

/-- **An order in which a query may answer**: its rows, by the key. -/
structure Answer (key : α → κ) (rows l : List α) : Prop where
  perm : l.Perm rows
  sorted : l.Pairwise fun a b => key a ≤ key b

/-- What holds of a row and of all with smaller keys holds of a beginning. -/
theorem filter_eq_take {p : α → Bool} (hp : ∀ a b, key a ≤ key b → p b = true → p a = true)
    (h : l.Pairwise fun a b => key a ≤ key b) : l.filter p = l.take (l.countP p) := by
  induction l with
  | nil => rfl
  | cons a l ih =>
    obtain ⟨hle, hsorted⟩ := List.pairwise_cons.mp h
    cases hpa : p a with
    | true => rw [List.filter_cons_of_pos hpa, List.countP_cons_of_pos hpa, ih hsorted,
        List.take_succ_cons]
    | false =>
      have hnone : ∀ b ∈ a :: l, ¬ p b = true := by
        intro b hb hpb
        rcases List.mem_cons.mp hb with rfl | hb
        · rw [hpa] at hpb
          cases hpb
        · rw [hp a b (hle b hb) hpb] at hpa
          cases hpa
      rw [List.filter_eq_nil_iff.mpr hnone, List.countP_eq_zero.mpr hnone, List.take_zero]

theorem mem_take_countP {p : α → Bool} (hp : ∀ a b, key a ≤ key b → p b = true → p a = true)
    (h : l.Pairwise fun a b => key a ≤ key b) {a : α} (ha : a ∈ l.take (l.countP p)) :
    p a = true := by
  rw [← filter_eq_take hp h] at ha
  exact List.of_mem_filter ha

theorem not_of_mem_drop_countP {p : α → Bool}
    (hp : ∀ a b, key a ≤ key b → p b = true → p a = true)
    (h : l.Pairwise fun a b => key a ≤ key b) {a : α} (ha : a ∈ l.drop (l.countP p)) :
    ¬ p a = true := by
  have hlen : (l.drop (l.countP p)).countP p = 0 := by
    have hsplit := congrArg (List.countP p) (List.take_append_drop (l.countP p) l)
    rw [List.countP_append] at hsplit
    have hall : (l.take (l.countP p)).countP p = l.countP p := by
      rw [← filter_eq_take hp h, List.countP_filter]
      simp
    omega
  exact List.countP_eq_zero.mp hlen a ha

/-! ## Where a page may end -/

/-- **Rows with one key lie on both sides of position `m`.** -/
def Straddles (key : α → κ) (rows : List α) (m : ℕ) : Prop :=
  ∃ r ∈ rows, rows.countP (fun a => key a < key r) < m ∧ m < rows.countP fun a => key a ≤ key r

instance (m : ℕ) : Decidable (Straddles key rows m) :=
  inferInstanceAs (Decidable (∃ r ∈ rows, _ ∧ _))

theorem not_straddles_of_length_le (hm : rows.length ≤ m) : ¬ Straddles key rows m := by
  rintro ⟨r, -, -, hgt⟩
  exact absurd (Nat.lt_of_lt_of_le hgt List.countP_le_length) (Nat.not_lt.mpr hm)

theorem forall_not_straddles (hn : 0 < n)
    (h : ∀ k < pageCount rows.length n, ¬ Straddles key rows (k * n)) (k : ℕ) :
    ¬ Straddles key rows (k * n) := by
  by_cases hk : k < pageCount rows.length n
  · exact h k hk
  · exact not_straddles_of_length_le (Nat.le_trans (le_pageCount_mul hn rows.length)
      (Nat.mul_le_mul_right n (Nat.not_lt.mp hk)))

/-- Otherwise the keys before it are smaller than those after it. -/
theorem Answer.lt_of_not_straddles (h : Answer key rows l) (hm : ¬ Straddles key rows m) {a b : α}
    (ha : a ∈ l.take m) (hb : b ∈ l.drop m) : key a < key b := by
  have hsplit := h.sorted
  rw [← List.take_append_drop m l, List.pairwise_append] at hsplit
  refine lt_of_le_of_ne (hsplit.2.2 a ha b hb) fun heq => hm ⟨a, ?_, ?_, ?_⟩
  · exact h.perm.mem_iff.mp (List.mem_of_mem_take ha)
  · rw [← h.perm.countP_eq]
    by_contra hle
    have hlt := mem_take_countP (p := fun x => decide (key x < key a))
      (fun x y hxy hy => decide_eq_true (lt_of_le_of_lt hxy (of_decide_eq_true hy))) h.sorted
      (List.take_subset_take_left l (Nat.not_lt.mp hle) ha)
    exact lt_irrefl _ (of_decide_eq_true hlt)
  · rw [← h.perm.countP_eq]
    by_contra hle
    have hgt := not_of_mem_drop_countP (p := fun x => decide (key x ≤ key a))
      (fun x y hxy hy => decide_eq_true (le_trans hxy (of_decide_eq_true hy))) h.sorted
      (List.drop_subset_drop_left l (Nat.not_lt.mp hle) hb)
    exact hgt (decide_eq_true (le_of_eq heq.symm))

/-- **Up to a position where no rows with one key are split, all orders have the same rows.** -/
theorem Answer.take_perm (h : Answer key rows l) (h' : Answer key rows l')
    (hm : ¬ Straddles key rows m) : (l.take m).Perm (l'.take m) := by
  by_cases hlt : m < l.length
  · let p : α → Bool := fun a => decide (key a < key l[m])
    have hdown : ∀ a b, key a ≤ key b → p b = true → p a = true := fun a b hab hb =>
      decide_eq_true (lt_of_le_of_lt hab (of_decide_eq_true hb))
    have hpivot : l[m] ∈ l.drop m := by
      rw [List.drop_eq_getElem_cons hlt]
      exact List.mem_cons_self
    have hcount : l.countP p = m := by
      rw [← List.take_append_drop m l, List.countP_append]
      have htake : (l.take m).countP p = (l.take m).length :=
        List.countP_eq_length.mpr fun a ha =>
          decide_eq_true (h.lt_of_not_straddles hm ha hpivot)
      have hdrop : (l.drop m).countP p = 0 := by
        have hsorted := h.sorted.sublist (List.drop_sublist m l)
        rw [List.drop_eq_getElem_cons hlt, List.pairwise_cons] at hsorted
        refine List.countP_eq_zero.mpr fun b hb hpb => ?_
        rw [List.drop_eq_getElem_cons hlt] at hb
        rcases List.mem_cons.mp hb with rfl | hb
        · exact lt_irrefl _ (of_decide_eq_true hpb)
        · exact lt_irrefl _ (lt_of_lt_of_le (of_decide_eq_true hpb) (hsorted.1 b hb))
      rw [htake, hdrop, List.length_take]
      omega
    have hfilter := filter_eq_take hdown h.sorted
    have hfilter' := filter_eq_take hdown h'.sorted
    have hperm := h.perm.trans h'.perm.symm
    rw [hcount] at hfilter
    rw [← hperm.countP_eq, hcount] at hfilter'
    rw [← hfilter, ← hfilter']
    exact hperm.filter p
  · have hlen : l'.length = l.length := (h'.perm.trans h.perm.symm).length_eq
    rw [List.take_of_length_le (by omega), List.take_of_length_le (by omega)]
    exact h.perm.trans h'.perm.symm

/-- Where rows with one key are split, some order has one of them at the end of the first part, and
another has it at the beginning of the second. -/
theorem exists_answers_of_straddles (h : Answer key rows l) (hm : Straddles key rows m) :
    ∃ l', Answer key rows l' ∧ ∃ a, a ∈ l.take m ∧ a ∈ l'.drop m := by
  obtain ⟨r, hr, hlt, hgt⟩ := hm
  rw [← h.perm.countP_eq] at hlt hgt
  obtain ⟨j, rfl⟩ : ∃ j, m = j + 1 := ⟨m - 1, by omega⟩
  have hlen : j + 1 < l.length := Nat.lt_of_lt_of_le hgt List.countP_le_length
  have hsame : ∀ i (hi : i < l.length), j ≤ i → i ≤ j + 1 → key l[i] = key r := by
    intro i hi hlo hhi
    refine le_antisymm ?_ ?_
    · have hmem : l[i] ∈ l.take (l.countP fun a => decide (key a ≤ key r)) := by
        rw [List.mem_take_iff_getElem]
        exact ⟨i, by omega, rfl⟩
      exact of_decide_eq_true (mem_take_countP (p := fun x => decide (key x ≤ key r))
        (fun x y hxy hy => decide_eq_true (le_trans hxy (of_decide_eq_true hy))) h.sorted hmem)
    · have hmem : l[i] ∈ l.drop (l.countP fun a => decide (key a < key r)) := by
        rw [List.mem_drop_iff_getElem]
        exact ⟨i - l.countP fun a => decide (key a < key r), by omega, by congr 1; omega⟩
      refine le_of_not_gt fun hlt' => ?_
      exact not_of_mem_drop_countP (p := fun x => decide (key x < key r))
        (fun x y hxy hy => decide_eq_true (lt_of_le_of_lt hxy (of_decide_eq_true hy))) h.sorted hmem
        (decide_eq_true hlt')
  -- Two neighbours with one key change places.
  obtain ⟨before, a, b, after, hl, hbefore, hab⟩ : ∃ before a b after,
      l = before ++ a :: b :: after ∧ before.length = j ∧ key a = key b := by
    have hj : j < l.length := by omega
    refine ⟨l.take j, l[j], l[j + 1], l.drop (j + 2), ?_, ?_, ?_⟩
    · rw [← List.drop_eq_getElem_cons hlen, ← List.drop_eq_getElem_cons hj, List.take_append_drop]
    · rw [List.length_take]
      omega
    · rw [hsame j hj (by omega) (by omega), hsame (j + 1) hlen (by omega) (by omega)]
  subst hl
  refine ⟨before ++ b :: a :: after, ⟨?_, ?_⟩, a, ?_, ?_⟩
  · exact ((List.Perm.swap a b after).append_left before).trans h.perm
  · have hsorted := h.sorted
    rw [← List.pairwise_map (f := key) (R := (· ≤ ·))] at hsorted ⊢
    simpa [hab] using hsorted
  · rw [← hbefore, List.take_append, List.mem_append]
    exact .inr (by simp)
  · rw [← hbefore, List.drop_append]
    simp

/-! ## Pages of several executions -/

/-- **Pages that were fetched**, each from an order of its own. -/
def Fetched (key : α → κ) (rows : List α) (n : ℕ) (pages : ℕ → List α) : Prop :=
  ∀ k, ∃ l, Answer key rows l ∧ pages k = page l n k

variable {pages : ℕ → List α}

/-- The first pages, if none of them ends between rows with one key. -/
theorem Fetched.flatMap_perm (h : Fetched key rows n pages) (hl : Answer key rows l)
    (hpages : ∀ k, ¬ Straddles key rows (k * n)) (m : ℕ) :
    ((List.range m).flatMap pages).Perm (l.take (m * n)) := by
  induction m with
  | zero => simp
  | succ m ih =>
    obtain ⟨l', hl', hpage⟩ := h m
    have hprefix := hl'.take_perm hl (hpages (m + 1))
    rw [take_succ, take_succ] at hprefix
    have hthis : (page l' n m).Perm (page l n m) :=
      (List.perm_append_left_iff _).mp
        (((hl'.take_perm hl (hpages m)).symm.append_right _).trans hprefix)
    rw [List.range_succ, List.flatMap_append, take_succ]
    simpa [hpage] using ih.append hthis

/-- In that case the pages are an order in which the query may answer. -/
theorem Fetched.answer (h : Fetched key rows n pages) (hn : 0 < n)
    (hpages : ∀ k, ¬ Straddles key rows (k * n)) (hl : Answer key rows l) :
    Answer key rows ((List.range (pageCount rows.length n)).flatMap pages) := by
  constructor
  · have hperm := h.flatMap_perm hl hpages (pageCount rows.length n)
    rw [List.take_of_length_le (hl.perm.length_eq ▸ le_pageCount_mul hn rows.length)] at hperm
    exact hperm.trans hl.perm
  · refine List.pairwise_flatMap.mpr ⟨fun k _ => ?_, List.pairwise_lt_range.imp ?_⟩
    · obtain ⟨l', hl', hpage⟩ := h k
      rw [hpage]
      exact hl'.sorted.sublist ((List.take_sublist _ _).trans (List.drop_sublist _ _))
    · intro i j hij a ha b hb
      obtain ⟨l₁, hl₁, hpage₁⟩ := h i
      obtain ⟨l₂, hl₂, hpage₂⟩ := h j
      rw [hpage₁] at ha
      rw [hpage₂] at hb
      have ha₁ : a ∈ l₁.take ((i + 1) * n) := by
        rw [take_succ]
        exact List.mem_append_right _ ha
      have ha₂ := (hl₁.take_perm hl₂ (hpages (i + 1))).mem_iff.mp ha₁
      have hb₂ : b ∈ l₂.drop ((i + 1) * n) :=
        List.drop_subset_drop_left l₂ (Nat.mul_le_mul_right n hij) (List.mem_of_mem_take hb)
      exact le_of_lt (hl₂.lt_of_not_straddles (hpages (i + 1)) ha₂ hb₂)

/-- **Fetched pages are all the rows**, whatever the orders, exactly if no page ends between two rows
with one key. -/
theorem pages_complete_iff (hrows : rows.Nodup) (hn : 0 < n) (hl : Answer key rows l) :
    (∀ pages, Fetched key rows n pages →
        ((List.range (pageCount rows.length n)).flatMap pages).Perm rows)
      ↔ ∀ k, ¬ Straddles key rows (k * n) := by
  constructor
  · intro hall k hm
    obtain ⟨l', hl', a, ha, ha'⟩ := exists_answers_of_straddles hl hm
    have hfetched : Fetched key rows n fun i => if i < k then page l n i else page l' n i := by
      intro i
      by_cases hi : i < k
      · exact ⟨l, hl, if_pos hi⟩
      · exact ⟨l', hl', if_neg hi⟩
    have hperm := hall _ hfetched
    have hk : k < pageCount rows.length n := by
      obtain ⟨r, -, -, hgt⟩ := hm
      have hlen : k * n < rows.length := Nat.lt_of_lt_of_le hgt List.countP_le_length
      exact Nat.lt_of_mul_lt_mul_right (Nat.lt_of_lt_of_le hlen (le_pageCount_mul hn rows.length))
    obtain ⟨d, hd⟩ : ∃ d, pageCount rows.length n = k + d :=
      ⟨_, (Nat.add_sub_of_le (Nat.le_of_lt hk)).symm⟩
    have hfirst : (List.range k).flatMap (fun i => if i < k then page l n i else page l' n i)
        = l.take (k * n) := by
      rw [← flatMap_page]
      exact List.flatMap_congr fun i hi => if_pos (List.mem_range.mp hi)
    have hrest : ((List.range d).map (k + ·)).flatMap
        (fun i => if i < k then page l n i else page l' n i) = l'.drop (k * n) := by
      have hlater : ((List.range d).map (k + ·)).flatMap
          (fun i => if i < k then page l n i else page l' n i)
          = ((List.range d).map (k + ·)).flatMap (page l' n) := by
        refine List.flatMap_congr fun i hi => ?_
        obtain ⟨e, -, rfl⟩ := List.mem_map.mp hi
        exact if_neg (Nat.not_lt.mpr (Nat.le_add_right k e))
      have hwhole := flatMap_pages hn l'
      rw [hl'.perm.length_eq, hd, List.range_add, List.flatMap_append, flatMap_page] at hwhole
      rw [hlater]
      exact List.append_cancel_left (hwhole.trans (List.take_append_drop (k * n) l').symm)
    rw [hd, List.range_add, List.flatMap_append, hfirst, hrest] at hperm
    have hnodup := hperm.nodup_iff.mpr hrows
    exact (List.nodup_append.mp hnodup).2.2 a ha a ha' rfl
  · intro hpages pages hpages'
    exact (hpages'.answer hn hpages hl).perm

/-! ## Sorting an answer again -/

variable {κ' : Type*} [LinearOrder κ'] {key' : α → κ'}

/-- By one key, and among equal ones by another. -/
def lexKey (key' : α → κ') (key : α → κ) (a : α) : Lex (κ' × κ) := toLex (key' a, key a)

theorem pairwise_orderedInsert {a : α}
    (h : l.Pairwise fun a b => lexKey key' key a ≤ lexKey key' key b)
    (ha : ∀ b ∈ l, key a ≤ key b) :
    (l.orderedInsert (fun a b => key' a ≤ key' b) a).Pairwise
      fun a b => lexKey key' key a ≤ lexKey key' key b := by
  induction l with
  | nil => exact List.pairwise_singleton _ a
  | cons b l ih =>
    obtain ⟨hb, hl⟩ := List.pairwise_cons.mp h
    by_cases hab : key' a ≤ key' b
    · have hle : lexKey key' key a ≤ lexKey key' key b :=
        Prod.Lex.toLex_mono ⟨hab, ha b List.mem_cons_self⟩
      rw [List.orderedInsert_cons_of_le _ l hab]
      refine List.pairwise_cons.mpr ⟨fun c hc => ?_, h⟩
      rcases List.mem_cons.mp hc with rfl | hc
      · exact hle
      · exact le_trans hle (hb c hc)
    · rw [List.orderedInsert_of_not_le _ l hab]
      refine List.pairwise_cons.mpr ⟨fun c hc => ?_, ih hl fun c hc => ha c (.tail b hc)⟩
      rcases (List.mem_orderedInsert _).mp hc with rfl | hc
      · exact le_of_lt (Prod.Lex.toLex_lt_toLex.mpr (.inl (lt_of_not_ge hab)))
      · exact hb c hc

/-- **A stable sort of an answer** is an answer by the new key, and among equal ones by the old. -/
theorem Answer.insertionSort (h : Answer key rows l) :
    Answer (lexKey key' key) rows (l.insertionSort fun a b => key' a ≤ key' b) := by
  refine ⟨(List.perm_insertionSort _ l).trans h.perm, ?_⟩
  have hsorted := h.sorted
  clear h
  induction l with
  | nil => exact List.Pairwise.nil
  | cons a l ih =>
    obtain ⟨ha, hl⟩ := List.pairwise_cons.mp hsorted
    exact pairwise_orderedInsert (ih hl) fun b hb => ha b ((List.mem_insertionSort _).mp hb)

/-! ## The first row under each key -/

section Distinct

variable {β : Type*} [DecidableEq β] {name : α → β} {a : α}

/-- A row whose name is not taken. -/
def setIfAbsent (name : α → β) (rows : List α) (a : α) : List α :=
  if rows.any fun r => decide (name r = name a) then rows else rows ++ [a]

/-- **The first row of each name**, in the order of the rows. -/
def distinct (name : α → β) (l : List α) : List α := l.foldl (setIfAbsent name) []

theorem distinct_concat (l : List α) (a : α) :
    distinct name (l ++ [a]) = setIfAbsent name (distinct name l) a := by
  rw [distinct, List.foldl_append]
  rfl

theorem distinct_sublist (l : List α) : (distinct name l).Sublist l := by
  induction l using List.reverseRecOn with
  | nil => exact List.Sublist.refl []
  | append_singleton l a ih =>
    rw [distinct_concat, setIfAbsent]
    split
    · exact ih.trans (List.sublist_append_left l [a])
    · exact ih.append_right [a]

theorem nodup_map_distinct (l : List α) : ((distinct name l).map name).Nodup := by
  induction l using List.reverseRecOn with
  | nil => exact List.nodup_nil
  | append_singleton l a ih =>
    rw [distinct_concat, setIfAbsent]
    split
    · exact ih
    · next hnew =>
      rw [List.map_append, List.nodup_append]
      refine ⟨ih, List.nodup_singleton _, fun x hx y hy hxy => hnew ?_⟩
      obtain ⟨r, hr, rfl⟩ := List.mem_map.mp hx
      rw [List.map_singleton, List.mem_singleton] at hy
      exact List.any_eq_true.mpr ⟨r, hr, decide_eq_true (hxy.trans hy)⟩

/-- A row is in it if a search by its name finds it. -/
theorem mem_distinct (l : List α) :
    a ∈ distinct name l ↔ l.find? (fun r => decide (name r = name a)) = some a := by
  induction l using List.reverseRecOn generalizing a with
  | nil => simp [distinct]
  | append_singleton l b ih =>
    have htaken : ((distinct name l).any fun r => decide (name r = name b)) = true ↔
        ∃ r, l.find? (fun r => decide (name r = name b)) = some r := by
      refine List.any_eq_true.trans ⟨?_, ?_⟩
      · rintro ⟨r, hr, hname⟩
        rw [← of_decide_eq_true hname]
        exact ⟨r, ih.mp hr⟩
      · rintro ⟨r, hr⟩
        have hname := List.find?_some hr
        rw [← of_decide_eq_true hname] at hr
        exact ⟨r, ih.mpr hr, hname⟩
    rw [distinct_concat, setIfAbsent, List.find?_append]
    split
    · next hold =>
      obtain ⟨r, hr⟩ := htaken.mp hold
      rw [ih]
      by_cases hab : name b = name a
      · rw [← hab, hr]
        simp
      · simp [hab]
    · next hnew =>
      have hnone : l.find? (fun r => decide (name r = name b)) = none := by
        by_contra hsome
        obtain ⟨r, hr⟩ := Option.ne_none_iff_exists'.mp hsome
        exact hnew (htaken.mpr ⟨r, hr⟩)
      rw [List.mem_append, ih, List.mem_singleton]
      by_cases hab : name b = name a
      · rw [← hab, hnone]
        simp [hab, eq_comm]
      · have hne : a ≠ b := fun h => hab (h ▸ rfl)
        simp [hab, hne]

end Distinct

end Paging
