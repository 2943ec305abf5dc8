import ResourceHive.Bookings.System
import ResourceHive.Machinery.Retry

/-!
# Bookings/Retry — which conflicts `createBooking` retries

`createBooking` recognises a serialization conflict by the raw error of the client.  Between a
statement and the loop stand two handlers, `BookingService.validateBooking`'s and
`PointLedgerService`'s, that turn any error of the client into an HTTP exception; a conflict that
surfaces below one of them is answered as an internal error at once (`conflict_swallowed`).  Raw are
only those of the booking's insert and of the commit; while the database raises them nowhere else, the
loop does what it is for (`retriesConflicts_of_raw`).

An environment gives each attempt what the database does with it: which calls raise, and what others
commit before its snapshot and between its snapshot and its commit.
-/

namespace ResourceHive.Bookings

/-! ## The loop -/

/-- What an attempt meets. -/
structure Attempt where
  faults : Faults := .none
  /-- What others commit before the attempt's snapshot. -/
  before : Database → Database := id
  /-- What others commit between its snapshot and its own commit. -/
  during : Database → Database := id
  reading : Reading := {}

/-- What is raised when a constraint rejects one of the transaction's inserts: the booking's insert
raises as it is, the ledger's by way of the point service. -/
def rejection (c : Creation) (db : Database) : Thrown BookingError :=
  if ((Write.createBooking c.booking c.read).exec db).isSome then
    .http (.points (PointLedgerService.handleError "deduct" (.prisma .other)))
  else if ∃ b ∈ db.bookingsOf c.booking.resourceSlotId, b.id ∉ c.read then
    .prisma .transactionConflict
  else if db.bookings.rows.any fun b => b.id = c.booking.id
      ∨ (b.resourceSlotId = c.booking.resourceSlotId ∧ b.active) then
    .prisma .uniqueConstraint
  else .prisma .other

/-- One attempt: the transaction on its snapshot, then its commit on what is committed by then. -/
def Attempt.run (a : Attempt) (resourceSlotId : Uuid) (user : AuthenticatedUser) (db : Database) :
    Except (Thrown BookingError) Creation × Database :=
  let snapshot := a.before db
  let current := a.during snapshot
  match createWithinTransaction a.faults snapshot a.reading resourceSlotId user with
  | .error e => (.error e, current)
  | .ok c =>
    match a.faults .commit with
    | some e => (.error (.prisma e), current)
    | none =>
      match code.replay c.writes current with
      | some db' => (.ok c, db')
      | none => (.error (rejection c current), current)

/-- **`createBooking`**: the notification that follows a commit swallows its own errors. -/
def createBooking (env : ℕ → Attempt) (resourceSlotId : Uuid) (user : AuthenticatedUser)
    (db : Database) : Retry.Outcome Database (Thrown BookingError) Creation BookingError :=
  Retry.loop (fun n => (env n).run resourceSlotId user) afterFailedAttempt .transactionConflict
    maxSerializationAttempts 1 db

/-! ## What was raised for what -/

/-- An exception made of a serialization conflict. -/
def BookingError.causedByConflict : BookingError → Bool
  | .operation _ cause | .points (.operation _ cause) => cause = .transactionConflict
  | _ => false

/-- A serialization conflict, raw or made into an exception. -/
def conflict : Thrown BookingError → Bool
  | .prisma e => e = .transactionConflict
  | .http e => e.causedByConflict

/-- The calls whose errors a handler turns into an exception: those of `validateBooking`, balance read
included, and the ledger's insert. -/
def handled : List Statement :=
  [.findMembership, .findSlot, .findResource, .findAllowedMembership, .aggregateBalance, .createEntry]

/-- **The database raises conflicts raw**: at the booking's insert and at the commit only. -/
def Attempt.Raw (a : Attempt) : Prop :=
  ∀ statement ∈ handled, a.faults statement ≠ some .transactionConflict

instance (a : Attempt) : Decidable a.Raw := inferInstanceAs (Decidable (∀ _ ∈ _, _))

theorem bind_eq_error {ε α β : Type} {x : Except ε α} {f : α → Except ε β} {e : ε} :
    (x >>= f) = .error e ↔ x = .error e ∨ ∃ a, x = .ok a ∧ f a = .error e := by
  cases x with
  | error e' =>
    constructor
    · intro h
      cases h
      exact .inl rfl
    · rintro (h | ⟨_, h, _⟩)
      · cases h
        rfl
      · cases h
  | ok a =>
    constructor
    · exact fun h => .inr ⟨a, rfl, h⟩
    · rintro (h | ⟨_, h, hf⟩)
      · cases h
      · cases h
        exact hf

theorem mapError_eq_error {ε ε' α : Type*} {x : Except ε α} {f : ε → ε'} {e' : ε'} :
    x.mapError f = .error e' ↔ ∃ e, x = .error e ∧ f e = e' := by
  cases x <;> simp [Except.mapError]

theorem query_eq_error {α : Type*} {faults : Faults} {statement : Statement} {answer : α}
    {e : PrismaError} : query faults statement answer = .error e ↔ faults statement = some e := by
  unfold query
  cases faults statement <;> simp

/-- Where a transaction's error comes from, and what it has become on its way. -/
theorem error_cases {faults : Faults} {db : Database} {x : Reading} {resourceSlotId : Uuid}
    {user : AuthenticatedUser} {e : Thrown BookingError}
    (h : createWithinTransaction faults db x resourceSlotId user = .error e) :
    (∃ e', validateBooking faults db x.now resourceSlotId user = .error e' ∧ e = .http e')
      ∨ (∃ p, e = .prisma p)
      ∨ ∃ p, faults .createEntry = some p ∧ e = .http (.points (.operation "deduct" p)) := by
  rw [createWithinTransaction, bind_eq_error] at h
  rcases h with h | ⟨context, -, h⟩
  · obtain ⟨e', he', rfl⟩ := mapError_eq_error.mp h
    exact .inl ⟨e', he', rfl⟩
  rcases bind_eq_error.mp h with h | ⟨_, -, h⟩
  · obtain ⟨p, -, rfl⟩ := mapError_eq_error.mp h
    exact .inr (.inl ⟨p, rfl⟩)
  split at h
  · next hcost =>
    rcases bind_eq_error.mp h with h | ⟨_, -, h⟩
    · obtain ⟨e', he', rfl⟩ := mapError_eq_error.mp h
      rw [PointLedgerService.appendBookingDeduction, if_neg (by omega), mapError_eq_error] at he'
      obtain ⟨p, hp, rfl⟩ := he'
      exact .inr (.inr ⟨p, query_eq_error.mp hp, rfl⟩)
    · cases h
  · cases h

/-- An error that `validateBooking` raises because a call of it did. -/
def FromCall (faults : Faults) (e : Thrown BookingError) : Prop :=
  ∃ statement ∈ handled, ∃ p, faults statement = some p
    ∧ (e = .prisma p ∨ ∃ operation, e = .http (.points (.operation operation p)))

/-- An error of its own. -/
def Own (e : Thrown BookingError) : Prop :=
  ∃ e', e = .http e' ∧ e'.causedByConflict = false ∧ e' ≠ .transactionConflict

theorem fromCall_of_query {α : Type} {faults : Faults} {statement : Statement} {answer : α}
    {e : Thrown BookingError} (hmem : statement ∈ handled)
    (h : (query faults statement answer).mapError Thrown.prisma = .error e) : FromCall faults e := by
  obtain ⟨p, hp, rfl⟩ := mapError_eq_error.mp h
  exact ⟨statement, hmem, p, query_eq_error.mp hp, .inl rfl⟩

theorem resolve_error {faults : Faults} {d : Directory} {user : AuthenticatedUser}
    {e : Thrown BookingError} (h : resolve faults d user = .error e) : FromCall faults e ∨ Own e := by
  unfold resolve at h
  split at h
  · obtain rfl := Except.error.inj h
    exact .inr ⟨_, rfl, rfl, nofun⟩
  · rcases bind_eq_error.mp h with h | ⟨membership, -, h⟩
    · exact .inl (fromCall_of_query (by decide) h)
    · split at h
      · obtain rfl := Except.error.inj h
        exact .inr ⟨_, rfl, rfl, nofun⟩
      · cases h

theorem canAccessResource_error {faults : Faults} {d : Directory}
    {resourceId userId rootOrganizationId : Uuid} {e : Thrown BookingError}
    (h : canAccessResource faults d resourceId userId rootOrganizationId = .error e) :
    FromCall faults e := by
  unfold canAccessResource at h
  rcases bind_eq_error.mp h with h | ⟨resource, -, h⟩
  · exact fromCall_of_query (by decide) h
  · split at h
    · cases h
    · rcases bind_eq_error.mp h with h | ⟨_, -, h⟩
      · exact fromCall_of_query (by decide) h
      · cases h

theorem assertSufficientBalance_error {faults : Faults} {balance required : ℤ}
    {e : PointLedgerError}
    (h : PointLedgerService.assertSufficientBalance (query faults .aggregateBalance balance) required
      = .error e) : FromCall faults (.http (.points e)) ∨ Own (.http (.points e)) := by
  unfold PointLedgerService.assertSufficientBalance at h
  split at h
  · obtain rfl := Except.error.inj h
    exact .inr ⟨_, rfl, rfl, nofun⟩
  · split at h
    · next p hp =>
      obtain rfl := Except.error.inj h
      exact .inl ⟨.aggregateBalance, by decide, p, query_eq_error.mp hp, .inr ⟨_, rfl⟩⟩
    · split at h
      · obtain rfl := Except.error.inj h
        exact .inr ⟨_, rfl, rfl, nofun⟩
      · cases h

/-- **What `validateBooking` raises**: what a call of it raised, or an error of its own, none of them
the one that the loop answers when it is exhausted. -/
theorem validate_error {faults : Faults} {db : Database} {now : Timestamp} {resourceSlotId : Uuid}
    {user : AuthenticatedUser} {e : Thrown BookingError}
    (h : validate faults db now resourceSlotId user = .error e) : FromCall faults e ∨ Own e := by
  rw [validate, bind_eq_error] at h
  rcases h with h | ⟨authorization, -, h⟩
  · exact resolve_error h
  rcases bind_eq_error.mp h with h | ⟨slot, -, h⟩
  · exact .inl (fromCall_of_query (by decide) h)
  have hown {e' : BookingError} {α : Type}
      (h : (throw (.http e') : Except (Thrown BookingError) α) = .error e)
      (hconflict : e'.causedByConflict = false) (hne : e' ≠ .transactionConflict) : Own e := by
    obtain rfl := Except.error.inj h
    exact ⟨e', rfl, hconflict, hne⟩
  split at h
  · exact .inr (hown h rfl (by decide))
  split at h
  · exact .inr (hown h rfl (by decide))
  rcases bind_eq_error.mp h with h | ⟨canAccess, -, h⟩
  · exact .inl (canAccessResource_error h)
  split at h
  · exact .inr (hown h rfl (by decide))
  split at h
  · exact .inr (hown h rfl (by decide))
  split at h
  · exact .inr (hown h rfl (by decide))
  split at h
  · exact .inr (hown h rfl (by decide))
  rcases bind_eq_error.mp h with h | ⟨_, -, h⟩
  · obtain ⟨e', he', rfl⟩ := mapError_eq_error.mp h
    exact assertSufficientBalance_error he'
  · cases h

theorem validateBooking_ne_transactionConflict {faults : Faults} {db : Database} {now : Timestamp}
    {resourceSlotId : Uuid} {user : AuthenticatedUser} {e : BookingError}
    (h : validateBooking faults db now resourceSlotId user = .error e) : e ≠ .transactionConflict := by
  obtain ⟨t, ht, rfl⟩ := mapError_eq_error.mp h
  rcases validate_error ht with ⟨_, -, p, -, rfl | ⟨operation, rfl⟩⟩ | ⟨e', rfl, -, hne⟩
  · exact nofun
  · exact nofun
  · exact hne

/-! ## One attempt -/

variable {a : Attempt} {resourceSlotId : Uuid} {user : AuthenticatedUser} {db db' : Database}

/-- A rejected insert is no conflict, or a raw one. -/
theorem rejection_cases (c : Creation) (db : Database) :
    (∃ p, rejection c db = .prisma p)
      ∨ rejection c db = .http (.points (.operation "deduct" .other)) := by
  unfold rejection
  split
  · exact .inr rfl
  · split
    · exact .inl ⟨_, rfl⟩
    · split
      · exact .inl ⟨_, rfl⟩
      · exact .inl ⟨_, rfl⟩

/-- **A failed attempt leaves what others have committed.** -/
theorem run_error {e : Thrown BookingError} (h : a.run resourceSlotId user db = (.error e, db')) :
    db' = a.during (a.before db) := by
  unfold Attempt.run at h
  dsimp only at h
  split at h
  · exact (Prod.mk.inj h).2.symm
  · split at h
    · exact (Prod.mk.inj h).2.symm
    · split at h
      · cases h
      · exact (Prod.mk.inj h).2.symm

/-- A successful one leaves that with its own writes. -/
theorem run_ok {c : Creation} (h : a.run resourceSlotId user db = (.ok c, db')) :
    code.replay c.writes (a.during (a.before db)) = some db' := by
  unfold Attempt.run at h
  dsimp only at h
  split at h
  · cases h
  · split at h
    · cases h
    · split at h
      · next hrep =>
        obtain ⟨hc, rfl⟩ := Prod.mk.inj h
        obtain rfl := Except.ok.inj hc
        exact hrep
      · cases h

/-- What a failed attempt throws: an exception of `validateBooking`, a raw error, or the point
service's for the ledger's insert, which is caused by a conflict only where the insert raises one. -/
theorem run_error_cases {e : Thrown BookingError}
    (h : a.run resourceSlotId user db = (.error e, db')) :
    (∃ e', validateBooking a.faults (a.before db) a.reading.now resourceSlotId user = .error e'
        ∧ e = .http e')
      ∨ (∃ p, e = .prisma p)
      ∨ ∃ p, e = .http (.points (.operation "deduct" p))
          ∧ (p = .transactionConflict → a.faults .createEntry = some .transactionConflict) := by
  unfold Attempt.run at h
  dsimp only at h
  split at h
  · next e' he' =>
    obtain rfl := Except.error.inj (Prod.mk.inj h).1
    rcases error_cases he' with hval | hraw | ⟨p, hp, he⟩
    · exact .inl hval
    · exact .inr (.inl hraw)
    · exact .inr (.inr ⟨p, he, fun hconf => hconf ▸ hp⟩)
  · next c _ =>
    split at h
    · next p _ => exact .inr (.inl ⟨p, (Except.error.inj (Prod.mk.inj h).1).symm⟩)
    · split at h
      · cases h
      · obtain rfl := Except.error.inj (Prod.mk.inj h).1
        rcases rejection_cases c (a.during (a.before db)) with hraw | hpoints
        · exact .inr (.inl hraw)
        · exact .inr (.inr ⟨.other, hpoints, nofun⟩)

/-- **A conflict is thrown as it was raised.** -/
theorem Attempt.Raw.conflict_eq (hraw : a.Raw) {e : Thrown BookingError}
    (h : a.run resourceSlotId user db = (.error e, db')) (hconf : conflict e = true) :
    e = .prisma .transactionConflict := by
  rcases run_error_cases h with ⟨e', hval, rfl⟩ | ⟨p, rfl⟩ | ⟨p, rfl, hp⟩
  · obtain ⟨t, ht, rfl⟩ := mapError_eq_error.mp hval
    rcases validate_error ht with ⟨statement, hmem, p, hp, rfl | ⟨operation, rfl⟩⟩
      | ⟨e', rfl, hown, -⟩
    · exact absurd (of_decide_eq_true hconf ▸ hp) (hraw statement hmem)
    · exact absurd (of_decide_eq_true hconf ▸ hp) (hraw statement hmem)
    · exact absurd (hown.symm.trans hconf) (by decide)
  · rw [of_decide_eq_true hconf]
  · exact absurd (hp (of_decide_eq_true hconf)) (hraw .createEntry (by decide))

/-! ## The whole call -/

/-- What others commit over a number of attempts. -/
def others (env : ℕ → Attempt) : ℕ → Database → Database :=
  fun attempts => Retry.meanwhile (fun n db => (env n).during ((env n).before db)) attempts 1

/-- An attempt of a call, and the database it starts from. -/
abbrev Made (env : ℕ → Attempt) (resourceSlotId : Uuid) (user : AuthenticatedUser)
    (db : Database) (k : ℕ) (db' : Database) : Prop :=
  Retry.Made (fun n => (env n).run resourceSlotId user) afterFailedAttempt
    maxSerializationAttempts 1 db k db'

/-- **Booking creation retries conflicts.** -/
structure RetriesConflicts (env : ℕ → Attempt) (resourceSlotId : Uuid) (user : AuthenticatedUser)
    (db : Database) : Prop where
  /-- An attempt aborted by a conflict is followed by another one… -/
  retried : ∀ k e, (createBooking env resourceSlotId user db).attempts[k]? = some (.error e) →
    conflict e = true → k + 1 < maxSerializationAttempts →
      k + 1 < (createBooking env resourceSlotId user db).attempts.length
  /-- …unless it was the last, which is answered by the conflict error… -/
  last : ∀ e, (createBooking env resourceSlotId user db).attempts[maxSerializationAttempts - 1]?
      = some (.error e) → conflict e = true →
    (createBooking env resourceSlotId user db).answer = .error .transactionConflict
  /-- …and only then is. -/
  only : (createBooking env resourceSlotId user db).answer = .error .transactionConflict →
    (createBooking env resourceSlotId user db).attempts.length = maxSerializationAttempts
  /-- No other error is answered because of a conflict. -/
  never : ∀ e, (createBooking env resourceSlotId user db).answer = .error e →
    e.causedByConflict = false
  /-- At most one attempt commits, with one booking and at most one deduction… -/
  once : ((createBooking env resourceSlotId user db).attempts.filterMap Except.toOption).length ≤ 1
    ∧ ∀ c ∈ (createBooking env resourceSlotId user db).attempts.filterMap Except.toOption,
        c.writes = [.createBooking c.booking c.read]
          ∨ c.writes = [.createBooking c.booking c.read, .append c.entry]
  /-- …and the others leave nothing. -/
  clean : code.replay (((createBooking env resourceSlotId user db).attempts.filterMap
      Except.toOption).flatMap Creation.writes)
        (others env (createBooking env resourceSlotId user db).attempts.length db)
      = some (createBooking env resourceSlotId user db).state

variable {env : ℕ → Attempt}

/-- The attempts that commit: the one that is answered, if any. -/
theorem committed_eq (env : ℕ → Attempt) (resourceSlotId : Uuid) (user : AuthenticatedUser)
    (db : Database) :
    (createBooking env resourceSlotId user db).attempts.filterMap Except.toOption =
      (createBooking env resourceSlotId user db).answer.toOption.toList :=
  Retry.successes _ _ _

theorem createBooking_once (env : ℕ → Attempt) (resourceSlotId : Uuid) (user : AuthenticatedUser)
    (db : Database) :
    ((createBooking env resourceSlotId user db).attempts.filterMap Except.toOption).length ≤ 1
      ∧ ∀ c ∈ (createBooking env resourceSlotId user db).attempts.filterMap Except.toOption,
          c.writes = [.createBooking c.booking c.read]
            ∨ c.writes = [.createBooking c.booking c.read, .append c.entry] := by
  refine ⟨?_, fun c _ => ?_⟩
  · rw [committed_eq]
    cases (createBooking env resourceSlotId user db).answer.toOption <;> simp
  · unfold Creation.writes
    split
    · exact .inr rfl
    · exact .inl rfl

theorem createBooking_clean (env : ℕ → Attempt) (resourceSlotId : Uuid) (user : AuthenticatedUser)
    (db : Database) :
    code.replay (((createBooking env resourceSlotId user db).attempts.filterMap
        Except.toOption).flatMap Creation.writes)
          (others env (createBooking env resourceSlotId user db).attempts.length db)
        = some (createBooking env resourceSlotId user db).state := by
  have hstate := Retry.state_eq (fun n => (env n).run resourceSlotId user) afterFailedAttempt
    BookingError.transactionConflict (f := fun n db => (env n).during ((env n).before db))
    (g := fun c : Creation => code.replay c.writes)
    (fun _ _ _ _ => run_error) (fun _ _ _ _ => run_ok) maxSerializationAttempts 1 db
  rw [committed_eq]
  unfold createBooking others at *
  rw [← hstate]
  cases (Retry.loop (fun n => (env n).run resourceSlotId user) afterFailedAttempt
    BookingError.transactionConflict maxSerializationAttempts 1 db).answer.toOption <;> simp

/-- The loop gives up with the conflict error at the last attempt only. -/
theorem giveUp_transactionConflict {k : ℕ} {e : Thrown BookingError} {db₁ db₂ : Database}
    {a : Attempt} (h : a.run resourceSlotId user db₁ = (.error e, db₂))
    (hstop : afterFailedAttempt k e = some .transactionConflict) : k = maxSerializationAttempts := by
  rcases run_error_cases h with ⟨e', hval, rfl⟩ | ⟨p, rfl⟩ | ⟨p, rfl, -⟩
  · obtain rfl : e' = .transactionConflict := Option.some.inj hstop
    exact absurd rfl (validateBooking_ne_transactionConflict hval)
  · cases p with
    | transactionConflict =>
      by_contra hne
      simp [afterFailedAttempt, hne] at hstop
    | uniqueConstraint => cases hstop
    | other => cases hstop
  · cases hstop

/-- **`createBooking` retries conflicts**, if in none of its attempts the database raises one in
`validateBooking` or at the ledger's insert. -/
theorem retriesConflicts_of_raw (env : ℕ → Attempt) (resourceSlotId : Uuid) (user : AuthenticatedUser)
    (db : Database) (h : ∀ k < maxSerializationAttempts, (env (k + 1)).Raw) :
    RetriesConflicts env resourceSlotId user db := by
  have hraw : ∀ k db₁ e db₂, Made env resourceSlotId user db k db₁ →
      (env k).run resourceSlotId user db₁ = (.error e, db₂) → conflict e = true →
        e = .prisma .transactionConflict := by
    intro k db₁ e db₂ hmade hrun hconf
    have hbounds := hmade.bounds
    obtain ⟨k, rfl⟩ : ∃ k', k = k' + 1 := ⟨k - 1, by omega⟩
    exact (h k (by omega)).conflict_eq hrun hconf
  have hattempt : ∀ k e, (createBooking env resourceSlotId user db).attempts[k]?
      = some (.error e) → ∃ db₁ db₂, Made env resourceSlotId user db (1 + k) db₁
        ∧ (env (1 + k)).run resourceSlotId user db₁ = (.error e, db₂) := by
    intro k e hk
    obtain ⟨db₁, hmade, he⟩ := Retry.made_of_attempts hk
    exact ⟨db₁, _, hmade, Prod.ext he rfl⟩
  refine ⟨fun k e hk hconf hlt => ?_, fun e he hconf => ?_, fun hanswer => ?_,
    fun e hanswer => ?_, createBooking_once _ _ _ _, createBooking_clean _ _ _ _⟩
  · obtain ⟨db₁, db₂, hmade, hrun⟩ := hattempt k e hk
    obtain rfl := hraw _ _ _ _ hmade hrun hconf
    have hne : 1 + k ≠ maxSerializationAttempts := by omega
    have hgo : afterFailedAttempt (1 + k) (.prisma .transactionConflict) = none := if_neg hne
    have hnext := (hmade.again hrun hgo (by omega)).attempts
      BookingError.transactionConflict
    rw [show 1 + k + 1 - 1 = k + 1 by omega] at hnext
    exact (List.getElem?_eq_some_iff.mp hnext).1
  · obtain ⟨db₁, db₂, hmade, hrun⟩ := hattempt _ e he
    obtain rfl := hraw _ _ _ _ hmade hrun hconf
    exact (hmade.stops _ hrun rfl).1
  · rcases Retry.answer_error hanswer with ⟨k, db₁, e, db₂, hmade, hrun, hstop⟩ | ⟨-, hlen⟩
    · have hk := giveUp_transactionConflict hrun hstop
      have := (hmade.stops BookingError.transactionConflict hrun hstop).2
      rw [createBooking, this, hk]
      rfl
    · exact hlen
  · rcases Retry.answer_error hanswer with ⟨k, db₁, t, db₂, hmade, hrun, hstop⟩ | ⟨rfl, -⟩
    · by_contra hconf
      rw [Bool.not_eq_false] at hconf
      cases t with
      | http e' =>
        obtain rfl : e' = e := Option.some.inj hstop
        cases hraw _ _ _ _ hmade hrun hconf
      | prisma p =>
        cases p with
        | transactionConflict =>
          simp only [afterFailedAttempt, Option.ite_none_right_eq_some, Option.some.injEq] at hstop
          rw [← hstop.2] at hconf
          cases hconf
        | uniqueConstraint | other =>
          obtain rfl := Option.some.inj hstop
          cases hconf
    · rfl

/-- The first attempts are aborted by a conflict at one call. -/
def abortedAt (statement : Statement) (attempts n : ℕ) : Attempt where
  faults st := if n ≤ attempts ∧ st = statement then some .transactionConflict else none

/-- **Two commits that conflict, and a third that does not.** -/
theorem retriesConflicts_of_commits :
    (createBooking (abortedAt .commit 2) 20 ⟨1, some 100⟩ (sample 0).db).attempts.map
        (fun r => r.toOption.isSome) = [false, false, true]
      ∧ RetriesConflicts (abortedAt .commit 2) 20 ⟨1, some 100⟩ (sample 0).db :=
  ⟨by decide, retriesConflicts_of_raw _ _ _ _ fun k _ statement hmem => by
    have hne : statement ≠ .commit := fun heq => by
      rw [heq] at hmem
      exact absurd hmem (by decide)
    simp [abortedAt, hne]⟩

/-- **The conflict that is not retried**: the database aborts the first attempt at the look-up of
the slot, and the call answers an internal error. -/
theorem conflict_swallowed :
    ¬ RetriesConflicts (abortedAt .findSlot 1) 20 ⟨1, some 100⟩ (sample 0).db := by
  intro h
  have := h.never (.operation "validate" .transactionConflict) (by decide)
  cases this

end ResourceHive.Bookings
