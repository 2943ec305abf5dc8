import Mathlib
import ResourceHive.Machinery.Table

/-!
# Points/Ledger — `point_transactions`, `user_point_balances` and the trigger between them

The ledger is append-only and is what a balance *is* (`getBalance`, the sum of a pair's entries);
`user_point_balances` is a projection of it that a trigger maintains
(`updateUserPointBalanceFromTransaction`).  The CHECKs, indexes and foreign keys are those the
migrations leave in force; an insert violating one of them, or rejected by the trigger, yields
`none`.
-/

namespace ResourceHive

abbrev Uuid := ℕ

/-- Milliseconds. -/
abbrev Timestamp := ℤ

/-- What an `INTEGER` column holds. -/
def Integer4 (n : ℤ) : Prop := -2147483648 ≤ n ∧ n ≤ 2147483647

instance : DecidablePred Integer4 := fun n =>
  inferInstanceAs (Decidable (-2147483648 ≤ n ∧ n ≤ 2147483647))

/-! ## The tables -/

inductive TransactionType
  | joinBonus
  | semesterAllocation
  | booking
  | bookingRefund
  deriving DecidableEq, Repr

/-- A row of `point_transactions`. -/
structure PointTransaction where
  id : Uuid
  userId : Uuid
  rootOrganizationId : Option Uuid
  amount : ℤ
  transactionType : TransactionType
  sourceOrganizationId : Option Uuid := none
  bookingId : Option Uuid := none
  description : Option String := none
  createdAt : Timestamp
  deriving DecidableEq, Repr

namespace PointTransaction

/-- `point_transactions_source_check`. -/
def SourceCheck (e : PointTransaction) : Prop :=
  ((e.transactionType = .joinBonus ∨ e.transactionType = .semesterAllocation) ∧ 0 < e.amount
      ∧ e.sourceOrganizationId.isSome ∧ e.bookingId.isNone)
    ∨ (e.transactionType = .booking ∧ e.amount < 0
      ∧ e.sourceOrganizationId.isNone ∧ e.bookingId.isSome)
    ∨ (e.transactionType = .bookingRefund ∧ 0 < e.amount
      ∧ e.sourceOrganizationId.isNone ∧ e.bookingId.isSome)

instance : DecidablePred SourceCheck := fun _ => inferInstanceAs (Decidable (_ ∨ _ ∨ _))

/-- The CHECKs of a row. -/
def Checks (e : PointTransaction) : Prop := Integer4 e.amount ∧ e.amount ≠ 0 ∧ e.SourceCheck

instance : DecidablePred Checks := fun _ => inferInstanceAs (Decidable (_ ∧ _ ∧ _))

/-- Whether the entry counts towards the balance of a user at a university. -/
def of (userId rootOrganizationId : Uuid) (e : PointTransaction) : Bool :=
  e.userId = userId && e.rootOrganizationId = some rootOrganizationId

/-- Whether the entry is of a type and for a booking. -/
def forBooking (type : TransactionType) (bookingId : Uuid) (e : PointTransaction) : Bool :=
  decide (e.transactionType = type) && decide (e.bookingId = some bookingId)

/-- The primary key, the CHECKs, and the three partial unique indexes. -/
def Constraints (rows : List PointTransaction) : Prop :=
  Table.Unique id rows ∧ Table.Check Checks rows
    ∧ Table.UniqueWhere (·.transactionType = .joinBonus)
        (fun e => (e.userId, e.sourceOrganizationId)) rows
    ∧ Table.UniqueWhere (·.transactionType = .booking) bookingId rows
    ∧ Table.UniqueWhere (·.transactionType = .bookingRefund) bookingId rows

instance : DecidablePred Constraints := fun _ =>
  inferInstanceAs (Decidable (_ ∧ _ ∧ _ ∧ _ ∧ _))

end PointTransaction

/-- A row of `user_point_balances`. -/
structure UserPointBalance where
  userId : Uuid
  rootOrganizationId : Uuid
  availablePoints : ℤ
  updatedAt : Timestamp
  deriving DecidableEq, Repr

namespace UserPointBalance

/-- Whether the row is the one of a user at a university. -/
def of (userId rootOrganizationId : Uuid) (b : UserPointBalance) : Bool :=
  b.userId = userId && b.rootOrganizationId = rootOrganizationId

/-- `available_points INTEGER NOT NULL CHECK (available_points >= 0)`. -/
def Checks (b : UserPointBalance) : Prop := Integer4 b.availablePoints ∧ 0 ≤ b.availablePoints

instance : DecidablePred Checks := fun _ => inferInstanceAs (Decidable (_ ∧ _))

/-- The CHECK, and the primary key. -/
def Constraints (rows : List UserPointBalance) : Prop :=
  Table.Unique (fun b => (b.userId, b.rootOrganizationId)) rows ∧ Table.Check Checks rows

instance : DecidablePred Constraints := fun _ => inferInstanceAs (Decidable (_ ∧ _))

end UserPointBalance

/-- The keys of other tables that the ledger's foreign keys refer to. -/
structure References where
  users : List Uuid
  /-- `(id, root_organization_id)`. -/
  organizations : List (Uuid × Uuid)
  /-- `(id, user_id, root_organization_id)`. -/
  bookings : List (Uuid × Uuid × Uuid)

/-- The foreign keys of `point_transactions`; a composite one is not checked where a column is
null. -/
def References.Admits (refs : References) (e : PointTransaction) : Prop :=
  e.userId ∈ refs.users
    ∧ (∀ o ∈ e.sourceOrganizationId, o ∈ refs.organizations.map Prod.fst)
    ∧ (∀ o ∈ e.sourceOrganizationId, ∀ r ∈ e.rootOrganizationId, (o, r) ∈ refs.organizations)
    ∧ (∀ b ∈ e.bookingId, (b, e.userId) ∈ refs.bookings.map fun k => (k.1, k.2.1))
    ∧ (∀ b ∈ e.bookingId, ∀ r ∈ e.rootOrganizationId, (b, e.userId, r) ∈ refs.bookings)

instance (refs : References) : DecidablePred refs.Admits := fun _ =>
  inferInstanceAs (Decidable (_ ∧ _ ∧ _ ∧ _ ∧ _))

/-- The foreign keys of `user_point_balances`. -/
def References.AdmitsBalance (refs : References) (userId rootOrganizationId : Uuid) : Prop :=
  userId ∈ refs.users ∧ rootOrganizationId ∈ refs.organizations.map Prod.fst

instance (refs : References) (u r : Uuid) : Decidable (refs.AdmitsBalance u r) :=
  inferInstanceAs (Decidable (_ ∧ _))

/-- The ledger and its projection. -/
structure Ledger where
  transactions : Table PointTransaction PointTransaction.Constraints
  balances : Table UserPointBalance UserPointBalance.Constraints

namespace Ledger

/-- The tables as the migrations create them. -/
def empty : Ledger where
  transactions := ⟨[], by decide⟩
  balances := ⟨[], by decide⟩

/-! ## The trigger -/

/-- **`update_user_point_balance_from_transaction`**, after the insert of `e`: an entry of no
university changes no balance, a negative amount updates an existing row that covers it or raises,
and a positive one is an upsert.  `CURRENT_TIMESTAMP` is the default of `created_at`. -/
def updateUserPointBalanceFromTransaction (refs : References) (e : PointTransaction)
    (balances : Table UserPointBalance UserPointBalance.Constraints) :
    Option (Table UserPointBalance UserPointBalance.Constraints) :=
  match e.rootOrganizationId with
  | none => some balances
  | some root =>
    let add (b : UserPointBalance) : UserPointBalance :=
      { b with availablePoints := b.availablePoints + e.amount, updatedAt := e.createdAt }
    if e.amount < 0 then
      let covers (b : UserPointBalance) : Bool :=
        b.of e.userId root && decide (0 ≤ b.availablePoints + e.amount)
      if balances.rows.any covers then balances.update covers add else none
    else if balances.rows.any (·.of e.userId root) then
      balances.update (·.of e.userId root) add
    else if refs.AdmitsBalance e.userId root then
      balances.insert ⟨e.userId, root, e.amount, e.createdAt⟩
    else none

/-! ## Statements on `point_transactions` -/

/-- INSERT of one entry. -/
def insert (refs : References) (e : PointTransaction) (L : Ledger) : Option Ledger :=
  if refs.Admits e then
    (L.transactions.insert e).bind fun transactions =>
      (updateUserPointBalanceFromTransaction refs e L.balances).map fun balances =>
        ⟨transactions, balances⟩
  else none

/-- **`reject_point_transaction_mutation`**: an UPDATE or DELETE raises for each row it matches, so
only one that matches none gets through. -/
def mutate (p : PointTransaction → Bool) (L : Ledger) : Option Ledger :=
  if L.transactions.rows.any p then none else some L

/-! ## Reads -/

/-- `PointLedgerRepository.getBalance`: the sum of the pair's amounts, `0` if there is none. -/
def getBalance (L : Ledger) (userId rootOrganizationId : Uuid) : ℤ :=
  ((L.transactions.rows.filter (·.of userId rootOrganizationId)).map (·.amount)).sum

/-- The amounts of the entries of a type for a booking. -/
def amountsFor (L : Ledger) (type : TransactionType) (bookingId : Uuid) : List ℤ :=
  (L.transactions.rows.filter (·.forBooking type bookingId)).map (·.amount)

/-! ## What an insert does -/

variable {refs : References} {e : PointTransaction} {L L' : Ledger}

/-- The parts of a successful insert. -/
theorem insert_eq_some (h : L.insert refs e = some L') :
    refs.Admits e ∧ L.transactions.insert e = some L'.transactions
      ∧ updateUserPointBalanceFromTransaction refs e L.balances = some L'.balances := by
  simp only [insert, Option.ite_none_right_eq_some, Option.bind_eq_some_iff,
    Option.map_eq_some_iff] at h
  obtain ⟨hadm, ts, hts, bs, hbs, rfl⟩ := h
  exact ⟨hadm, hts, hbs⟩

theorem mem_insert (h : L.insert refs e = some L') {x : PointTransaction} :
    x ∈ L'.transactions ↔ x ∈ L.transactions ∨ x = e :=
  Table.mem_insert (insert_eq_some h).2.1

theorem mutate_eq_some {p : PointTransaction → Bool} (h : L.mutate p = some L') : L' = L := by
  simp only [mutate, Option.ite_none_left_eq_some, Option.some.injEq] at h
  exact h.2.symm

theorem getBalance_insert (h : L.insert refs e = some L') (u r : Uuid) :
    L'.getBalance u r = L.getBalance u r + if e.of u r then e.amount else 0 := by
  have hrows := Table.insert_eq_some.mp (insert_eq_some h).2.1
  by_cases he : e.of u r <;> simp [getBalance, hrows, he]

theorem amountsFor_insert (h : L.insert refs e = some L') (type : TransactionType) (id : Uuid) :
    L'.amountsFor type id =
      L.amountsFor type id ++ if e.forBooking type id then [e.amount] else [] := by
  have hrows := Table.insert_eq_some.mp (insert_eq_some h).2.1
  by_cases he : e.forBooking type id <;> simp [amountsFor, hrows, he]

/-- At most one deduction and at most one refund for a booking: the partial unique indexes. -/
theorem amountsFor_length (L : Ledger) {t : TransactionType}
    (ht : t = .booking ∨ t = .bookingRefund) (id : Uuid) :
    (L.amountsFor t id).length ≤ 1 := by
  rw [amountsFor, List.length_map]
  rcases ht with rfl | rfl
  · exact L.transactions.valid.2.2.2.1.length_le_one (some id)
  · exact L.transactions.valid.2.2.2.2.length_le_one (some id)

end Ledger

end ResourceHive
