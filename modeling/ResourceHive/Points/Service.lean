import ResourceHive.Points.Ledger

/-!
# Points/Service — what the services read from the ledger, and how they report failures

`PointLedgerService` wraps every failure of its repository in an HTTP exception of its own; an error
that Prisma raised is no longer recognisable afterwards.  The result of the query is therefore an
argument here, so that a caller may be run against a database that fails at any statement.
-/

namespace ResourceHive

/-- What a Prisma call may raise, by the codes the services look at. -/
inductive PrismaError
  /-- `P2034`: the database aborted the transaction because of a write conflict or deadlock. -/
  | transactionConflict
  /-- `P2002`. -/
  | uniqueConstraint
  | other
  deriving DecidableEq, Repr

/-- Something thrown: an HTTP exception of a service, or a raw error of the client. -/
inductive Thrown (E : Type*)
  | http (e : E)
  | prisma (e : PrismaError)
  deriving DecidableEq, Repr

/-- `points/point-ledger.errors.ts`.  The cause of an operation error is not part of the exception:
it is what the handler had in hand when it made one. -/
inductive PointLedgerError
  | insufficientPoints (balance required : ℤ)
  | invalidPointRequirement
  | invalidPointDeduction
  | invalidPointRefund
  | operation (operation : String) (cause : PrismaError)
  deriving DecidableEq, Repr

namespace PointLedgerError

/-- The HTTP status of the exception's base class. -/
def status : PointLedgerError → ℕ
  | insufficientPoints _ _ => 409
  | invalidPointRequirement | invalidPointDeduction | invalidPointRefund => 400
  | operation _ _ => 500

def message : PointLedgerError → String
  | insufficientPoints _ _ => "The user has insufficient points"
  | invalidPointRequirement => "Required points must be a non-negative integer"
  | invalidPointDeduction => "Booking deduction amount must be a negative integer"
  | invalidPointRefund => "Booking refund amount must be a positive integer"
  | operation op _ => "Unable to " ++ op ++ " points"

end PointLedgerError

namespace PointLedgerService

/-- `handleError`: an HTTP exception passes, anything else becomes a `PointLedgerOperationError`. -/
def handleError (operation : String) : Thrown PointLedgerError → PointLedgerError
  | .http e => e
  | .prisma e => .operation operation e

/-- `assertSufficientBalance`, where the aggregate query answered `balance`. -/
def assertSufficientBalance (balance : Except PrismaError ℤ) (required : ℤ) :
    Except PointLedgerError ℤ :=
  if required < 0 then .error .invalidPointRequirement
  else match balance with
    | .error e => .error (handleError "validate" (.prisma e))
    | .ok balance =>
      if balance < required then .error (.insufficientPoints balance required) else .ok balance

/-- `appendBookingDeduction`, where the insert of the entry answered `created`. -/
def appendBookingDeduction {α : Type*} (created : Except PrismaError α) (amount : ℤ) :
    Except PointLedgerError α :=
  if 0 ≤ amount then .error .invalidPointDeduction
  else created.mapError fun e => handleError "deduct" (.prisma e)

/-- `appendBookingRefund`, likewise. -/
def appendBookingRefund {α : Type*} (created : Except PrismaError α) (amount : ℤ) :
    Except PointLedgerError α :=
  if amount ≤ 0 then .error .invalidPointRefund
  else created.mapError fun e => handleError "refund" (.prisma e)

/-- What passing the check says. -/
theorem assertSufficientBalance_eq_ok {balance : Except PrismaError ℤ} {required b : ℤ}
    (h : assertSufficientBalance balance required = .ok b) :
    0 ≤ required ∧ balance = .ok b ∧ required ≤ b := by
  unfold assertSufficientBalance at h
  split at h
  · cases h
  · cases balance with
    | error e => cases h
    | ok balance =>
      simp only at h
      split at h
      · cases h
      · obtain rfl := Except.ok.inj h
        exact ⟨by omega, rfl, by omega⟩

end PointLedgerService

/-- What `AuthService.getCurrentUserPoints` answers. -/
structure CurrentUserPoints where
  userId : Uuid
  availablePoints : ℤ
  updatedAt : Option Timestamp
  deriving DecidableEq, Repr

namespace Ledger

/-- **`AuthService.getCurrentUserPoints`** in the university context `root`. -/
def getCurrentUserPoints (L : Ledger) (root : Option Uuid) (userId : Uuid) : CurrentUserPoints :=
  match root with
  | none => ⟨userId, 0, none⟩
  | some root =>
    let balance := L.balances.find? (·.of userId root)
    ⟨userId, (balance.map (·.availablePoints)).getD 0, balance.map (·.updatedAt)⟩

end Ledger

end ResourceHive
