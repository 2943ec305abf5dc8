import ResourceHive.Machinery.Transactions
import ResourceHive.Points.Service

/-!
# Points/Balance — the projection a service reads is the sum the other one computes

`getCurrentUserPoints` reads `user_point_balances`, `getBalance` sums the ledger.  An insert adds its
amount to both (`available_insert`, `getBalance_insert`), and so they agree in every committed state
of any concurrent transactions (`getCurrentUserPoints_eq_getBalance`); that neither is ever negative
is the CHECK of the projection, read through that equality.
-/

namespace ResourceHive

namespace Ledger

/-! ## One insert -/

/-- The points a user has available at a university, as the projection has them. -/
def available (L : Ledger) (u r : Uuid) : ℤ := (L.getCurrentUserPoints (some r) u).availablePoints

/-- The projection agrees with the ledger. -/
def Projects (L : Ledger) : Prop := ∀ u r, L.available u r = L.getBalance u r

theorem available_eq (L : Ledger) (u r : Uuid) :
    L.available u r = ((L.balances.find? (·.of u r)).map (·.availablePoints)).getD 0 := rfl

theorem available_nonneg (L : Ledger) (u r : Uuid) : 0 ≤ L.available u r := by
  rw [available_eq]
  cases h : L.balances.find? (·.of u r) with
  | none => simp
  | some b => exact (L.balances.valid.2 b (Table.mem_of_find? h)).2

variable {refs : References} {e : PointTransaction} {L L' : Ledger}

/-- The row of a pair is the only one. -/
theorem find?_balance {T : Table UserPointBalance UserPointBalance.Constraints}
    {b : UserPointBalance} {u r : Uuid} (hb : b ∈ T) (h : b.of u r) :
    T.find? (·.of u r) = some b := by
  obtain ⟨b', hb'⟩ : ∃ b', T.find? (·.of u r) = some b' :=
    Option.isSome_iff_exists.mp (List.find?_isSome.mpr ⟨b, hb, h⟩)
  have hkey : ∀ c : UserPointBalance, c.of u r → (c.userId, c.rootOrganizationId) = (u, r) := by
    intro c hc
    simpa [UserPointBalance.of] using hc
  rw [hb', T.valid.1.eq (Table.mem_of_find? hb') hb
    ((hkey b' (Table.pred_of_find? hb')).trans (hkey b h).symm)]

/-- Adding an amount to rows of one pair, among them the pair's row if there is one. -/
private theorem available_of_update {T T' : Table UserPointBalance UserPointBalance.Constraints}
    {p : UserPointBalance → Bool} {u₀ r₀ : Uuid} {amount : ℤ} {t : Timestamp}
    (h : T.update p (fun b => { b with availablePoints := b.availablePoints + amount,
                                        updatedAt := t }) = some T')
    (hp : ∀ b, p b → b.of u₀ r₀) (hrow : ∃ b ∈ T, p b) (u r : Uuid) :
    ((T'.find? (·.of u r)).map (·.availablePoints)).getD 0 =
      ((T.find? (·.of u r)).map (·.availablePoints)).getD 0
        + if u₀ = u ∧ r₀ = r then amount else 0 := by
  obtain ⟨b, hb, hpb⟩ := hrow
  rw [Table.find?_update h fun _ => rfl]
  by_cases heq : u₀ = u ∧ r₀ = r
  · obtain ⟨rfl, rfl⟩ := heq
    simp [find?_balance hb (hp b hpb), hpb]
  · cases hf : T.find? (·.of u r) with
    | none => simp [heq]
    | some c =>
      have hc : c.of u r := Table.pred_of_find? hf
      have hpc : p c = false := by
        refine Bool.eq_false_iff.mpr fun hpc => heq ?_
        have h₀ := hp c hpc
        simp only [UserPointBalance.of, Bool.and_eq_true, decide_eq_true_eq] at hc h₀
        exact ⟨h₀.1.symm.trans hc.1, h₀.2.symm.trans hc.2⟩
      simp [hpc, heq]

/-- **The trigger adds the entry's amount to the pair's available points**, and changes nothing
else. -/
theorem available_insert (h : L.insert refs e = some L') (u r : Uuid) :
    L'.available u r = L.available u r + if e.of u r then e.amount else 0 := by
  have htrig := (insert_eq_some h).2.2
  rw [available_eq, available_eq]
  cases hroot : e.rootOrganizationId with
  | none =>
    simp only [updateUserPointBalanceFromTransaction, hroot, Option.some.injEq] at htrig
    simp [← htrig, PointTransaction.of, hroot]
  | some root =>
    have hof : e.of u r = decide (e.userId = u ∧ root = r) := by
      simp [PointTransaction.of, hroot]
    simp only [updateUserPointBalanceFromTransaction, hroot] at htrig
    simp only [hof, decide_eq_true_eq]
    split at htrig
    · split at htrig
      · next hcov =>
        refine available_of_update htrig (fun b hb => ?_) (List.any_eq_true.mp hcov) u r
        simp only [Bool.and_eq_true] at hb
        exact hb.1
      · cases htrig
    · split at htrig
      · next hrow => exact available_of_update htrig (fun b hb => hb) (List.any_eq_true.mp hrow) u r
      · next hno =>
        simp only [Option.ite_none_right_eq_some] at htrig
        rw [Table.find?_insert htrig.2]
        have hnone : L.balances.find? (·.of e.userId root) = none := by
          simpa [Table.find?] using hno
        by_cases heq : e.userId = u ∧ root = r
        · obtain ⟨rfl, rfl⟩ := heq
          have hnew : UserPointBalance.of e.userId root
              ⟨e.userId, root, e.amount, e.createdAt⟩ = true := by
            simp [UserPointBalance.of]
          simp [hnone, hnew]
        · have hnew : UserPointBalance.of u r ⟨e.userId, root, e.amount, e.createdAt⟩ = false := by
            simpa [UserPointBalance.of] using heq
          simp [hnew, heq]

/-- The trigger takes a credit that the pair's balance has room for. -/
theorem exists_credit {T : Table UserPointBalance UserPointBalance.Constraints} {root : Uuid}
    (hroot : e.rootOrganizationId = some root) (hpos : 0 < e.amount)
    (hadm : refs.AdmitsBalance e.userId root)
    (hfit : ((T.find? (·.of e.userId root)).map (·.availablePoints)).getD 0 + e.amount
      ≤ 2147483647) :
    ∃ T', updateUserPointBalanceFromTransaction refs e T = some T' := by
  simp only [updateUserPointBalanceFromTransaction, hroot, if_neg (not_lt.mpr hpos.le)]
  rw [← Option.isSome_iff_exists]
  have hroom {n : ℤ} (hn : 0 ≤ n) (h : n + e.amount ≤ 2147483647) :
      Integer4 (n + e.amount) ∧ 0 ≤ n + e.amount := ⟨⟨by omega, h⟩, by omega⟩
  by_cases hany : T.rows.any (·.of e.userId root)
  · rw [if_pos hany]
    refine Table.replace_isSome.mpr ⟨T.valid.1.map fun b => by split <;> rfl,
      T.valid.2.update fun b hb hof => ?_⟩
    rw [find?_balance hb hof] at hfit
    exact hroom (T.valid.2 b hb).2 hfit
  · rw [if_neg hany, if_pos hadm]
    have hno : ∀ b ∈ T.rows, b.of e.userId root = false := by simpa using hany
    have hnone : T.find? (·.of e.userId root) = none :=
      List.find?_eq_none.mpr fun b hb => by simp [hno b hb]
    rw [hnone] at hfit
    refine Table.replace_isSome.mpr ⟨T.valid.1.append fun b hb heq => ?_, fun b hb => ?_⟩
    · obtain ⟨hu, hr⟩ := Prod.mk.inj heq
      simpa [UserPointBalance.of, hu, hr] using hno b hb
    · rcases List.mem_append.mp hb with hb | hb
      · exact T.valid.2 b hb
      · obtain rfl := List.mem_singleton.mp hb
        have := hroom le_rfl hfit
        rwa [zero_add] at this

/-- **A refund is taken** if the booking has none yet and the balance has room for it. -/
theorem exists_refund {root : Uuid} (htype : e.transactionType = .bookingRefund)
    (hchecks : e.Checks) (hadm : refs.Admits e) (hid : ∀ e' ∈ L.transactions, e'.id ≠ e.id)
    (hnone : ∀ id ∈ e.bookingId, L.amountsFor .bookingRefund id = [])
    (hroot : e.rootOrganizationId = some root) (hbal : refs.AdmitsBalance e.userId root)
    (hfit : L.available e.userId root + e.amount ≤ 2147483647) :
    ∃ L', L.insert refs e = some L' := by
  have hsource := hchecks.2.2
  simp only [PointTransaction.SourceCheck, htype, reduceCtorEq, false_and, false_or, or_self,
    true_and] at hsource
  obtain ⟨T, hT⟩ : ∃ T, L.transactions.insert e = some T := by
    obtain ⟨hunique, hvalid, hjoin, hbooking, hrefund⟩ := L.transactions.valid
    refine Option.isSome_iff_exists.mp (Table.replace_isSome.mpr ⟨hunique.append hid,
      fun x hx => ?_, hjoin.append (by simp [htype]), hbooking.append (by simp [htype]),
      hrefund.append fun e' he' htype' _ heq => ?_⟩)
    · rcases List.mem_append.mp hx with hx | hx
      · exact hvalid x hx
      · exact List.mem_singleton.mp hx ▸ hchecks
    · obtain ⟨id, hid⟩ := Option.isSome_iff_exists.mp hsource.2.2
      have hmem : e' ∈ L.transactions.rows.filter (·.forBooking .bookingRefund id) := by
        refine List.mem_filter.mpr ⟨he', ?_⟩
        rw [PointTransaction.forBooking, Bool.and_eq_true]
        exact ⟨htype', decide_eq_true (heq.trans hid)⟩
      rw [List.map_eq_nil_iff.mp (hnone id hid)] at hmem
      cases hmem
  obtain ⟨B, hB⟩ := exists_credit (T := L.balances) hroot hsource.1 hbal hfit
  exact ⟨⟨T, B⟩, by simp [insert, hadm, hT, hB]⟩

theorem Projects.insert (h : L.Projects) (hins : L.insert refs e = some L') : L'.Projects := by
  intro u r
  rw [available_insert hins, getBalance_insert hins, h u r]

theorem Projects.mutate {p : PointTransaction → Bool} (h : L.Projects)
    (hmut : L.mutate p = some L') : L'.Projects := by
  rw [mutate_eq_some hmut]
  exact h

theorem projects_empty : empty.Projects := fun _ _ => rfl

/-- Where the projection agrees with the ledger, no balance is negative. -/
theorem Projects.getBalance_nonneg (h : L.Projects) (u r : Uuid) : 0 ≤ L.getBalance u r := by
  rw [← h u r]
  exact L.available_nonneg u r

end Ledger

/-! ## Concurrent transactions on the ledger -/

namespace Points

/-- The ledger, and the keys its foreign keys refer to. -/
structure Database where
  references : References
  ledger : Ledger

/-- A statement on `point_transactions`. -/
inductive Statement
  | insert (e : PointTransaction)
  | update (p : PointTransaction → Bool)
  | delete (p : PointTransaction → Bool)

/-- A transaction is the list of its statements, whatever was read before choosing them. -/
inductive Point
  | transaction (statements : List Statement)
  | returned
  | failed

/-- Any transactions over the ledger; the tables its foreign keys refer to change at will. -/
def code : Code Database Point Statement Unit References Empty where
  entry
    | .transaction _ => true
    | _ => false
  read _ _ _ := none
  writes
    | .transaction ws => ws
    | _ => []
  exec w db :=
    match w with
    | .insert e => (db.ledger.insert db.references e).map fun L => { db with ledger := L }
    | .update p | .delete p => (db.ledger.mutate p).map fun L => { db with ledger := L }
  committed _ := .returned
  rolledBack _ := .failed
  emits _ := []
  outside refs db := some { db with references := refs }

/-- The machine, from empty tables. -/
def machine : Machine (Sessions Database Point Empty) (Label Point Unit References) :=
  code.machine fun db => db.ledger = Ledger.empty

/-- A statement keeps the projection in agreement. -/
theorem projects_exec {w : Statement} {db db' : Database} (h : db.ledger.Projects)
    (hw : code.exec w db = some db') : db'.ledger.Projects := by
  cases w with
  | insert e =>
    obtain ⟨L, hL, rfl⟩ := Option.map_eq_some_iff.mp hw
    exact h.insert hL
  | update p | delete p =>
    obtain ⟨L, hL, rfl⟩ := Option.map_eq_some_iff.mp hw
    exact h.mutate hL

/-- …and so does a whole transaction, statement by statement. -/
theorem projects_replay : ∀ {ws : List Statement} {db db' : Database}, db.ledger.Projects →
    code.replay ws db = some db' → db'.ledger.Projects
  | [], _, _, h, hr => by
      obtain rfl := Option.some.inj hr
      exact h
  | w :: ws, db, db', h, hr => by
      rw [Code.replay_cons, Option.bind_eq_some_iff] at hr
      obtain ⟨d, hw, hr⟩ := hr
      exact projects_replay (projects_exec h hw) hr

/-- The agreement, as an outline: no call knows anything. -/
def outline : code.Outline Machine.free where
  Inv db _ := db.ledger.Projects
  At _ _ _ := True
  entry _ _ := trivial
  read _ _ _ := trivial
  rolledBack _ _ := trivial
  commit _ hinv _ _ _ hrep := ⟨projects_replay hinv hrep, trivial, fun _ _ _ _ _ => trivial⟩
  outside _ hinv hx := by
    obtain rfl := Option.some.inj hx
    exact ⟨hinv, fun _ _ _ => trivial⟩

theorem projects_of_reachable {s : Sessions Database Point Empty}
    (h : machine.Reachable Machine.free s) : s.db.ledger.Projects :=
  (outline.holds_of_reachable
    (fun _ hdb => (congrArg Ledger.Projects hdb).mpr Ledger.projects_empty) h).inv

/-- **The two representations agree in every committed state, and a balance that covered a
requirement is not overdrawn by anything that happens afterwards.** -/
theorem getCurrentUserPoints_eq_getBalance {s : Sessions Database Point Empty}
    (h : machine.Reachable Machine.free s) (userId root : Uuid) :
    (s.db.ledger.getCurrentUserPoints (some root) userId).availablePoints
        = s.db.ledger.getBalance userId root
      ∧ 0 ≤ s.db.ledger.getBalance userId root
      ∧ ∀ required balance t,
          PointLedgerService.assertSufficientBalance (.ok (s.db.ledger.getBalance userId root))
              required = .ok balance →
            machine.Run Machine.free s t → 0 ≤ t.db.ledger.getBalance userId root := by
  have hproj := projects_of_reachable h
  refine ⟨hproj userId root, hproj.getBalance_nonneg userId root, fun _ _ t _ hrun => ?_⟩
  exact (projects_of_reachable (h.run hrun)).getBalance_nonneg userId root

/-- A join bonus of 50 and a deduction of 20 committed by two overlapping transactions. -/
theorem getCurrentUserPoints_eq_getBalance_of_deduction :
    ∃ s, machine.Reachable Machine.free s ∧ s.db.ledger.getBalance 1 100 = 30
      ∧ (s.db.ledger.getCurrentUserPoints (some 100) 1).availablePoints
          = s.db.ledger.getBalance 1 100 := by
  let start : Sessions Database Point Empty :=
    { db := ⟨⟨[1], [(100, 100)], [(7, 1, 100)]⟩, Ledger.empty⟩, history := [], calls := [] }
  let bonus : PointTransaction :=
    { id := 1, userId := 1, rootOrganizationId := some 100, amount := 50,
      transactionType := .joinBonus, sourceOrganizationId := some 100, createdAt := 0 }
  let deduction : PointTransaction :=
    { id := 2, userId := 1, rootOrganizationId := some 100, amount := -20,
      transactionType := .booking, bookingId := some 7, createdAt := 1 }
  obtain ⟨s, hs, hbal⟩ := machine.exists_reachable
    (p := fun s => decide (s.db.ledger.getBalance 1 100 = 30)) (s := start)
    [.call (.transaction [.insert bonus]), .call (.transaction [.insert deduction]), .write 0,
      .commit 0, .write 1, .commit 1] ⟨rfl, rfl, rfl⟩ (by decide)
  exact ⟨s, hs, of_decide_eq_true hbal, (getCurrentUserPoints_eq_getBalance hs 1 100).1⟩

end Points

end ResourceHive
