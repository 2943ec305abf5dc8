import ResourceHive.Notifications.SentFinal

/-!
# Notifications/Attempts — the attempts at one delivery, on a clock

The dispatchers with what a run leaves of one delivery: its claims, the sends started, and the
failures recorded, each with the time of the next attempt that it sets.  There is one clock, and a
reading of it is made before the statement that uses it.

What an action does to the delivery's row, and to the instance that takes it, is said once
(`Touches`).
-/

namespace ResourceHive.Notifications

open DeliveryRepository

/-! ## The log of a delivery -/

/-- What a run keeps of the delivery. -/
inductive Entry
  | claimed (dispatcher : ℕ)
  | started (dispatcher : ℕ) (time : Timestamp)
  /-- A failure, and the `nextAttemptAt` it sets. -/
  | failed (nextAttemptAt : Option Timestamp)
  deriving DecidableEq, Repr

def Entry.isStart : Entry → Bool
  | .started _ _ => true
  | .claimed _ | .failed _ => false

/-- The sends started. -/
def starts (log : List Entry) : ℕ := log.countP (·.isStart)

/-- The `nextAttemptAt` set by the last recorded failure; logs have the latest first. -/
def lastRetry : List Entry → Option Timestamp
  | [] => none
  | .failed nextAttemptAt :: _ => nextAttemptAt
  | .claimed _ :: log | .started _ _ :: log => lastRetry log

/-- The instance has claimed the delivery since the last recorded failure. -/
def claimedSince (i : ℕ) : List Entry → Bool
  | [] | .failed _ :: _ => false
  | .claimed j :: log => decide (j = i) || claimedSince i log
  | .started _ _ :: log => claimedSince i log

/-- **No attempt starts early**: each at the `nextAttemptAt` of the last failure before it, or
later. -/
def OnTime : List Entry → Prop
  | [] => True
  | .started _ time :: log => (∀ n ∈ lastRetry log, n ≤ time) ∧ OnTime log
  | .claimed _ :: log | .failed _ :: log => OnTime log

/-- The first attempt, and one for each delay. -/
def budget : ℕ := delays.length + 1

example : budget = 6 := rfl

/-! ## The machine -/

/-- The clock reading that an action uses. -/
def Action.reading : Action → Option Timestamp
  | .requeueStale now _ | .findDue now _ | .claim now | .complete now _ | .fail now => some now
  | .tick | .finish | .findUnique | .send | .answer _ | .abort | .crash => none

def Label.reading : Label → Option Timestamp
  | .act _ a => a.reading
  | .start | .enqueue _ => none

/-- The failure of the delivery that is to be recorded from this point. -/
def Point.failure (id : Uuid) : Point → Option (NotificationDelivery × DeliveryError)
  | .failing delivery error _ => if delivery.id = id then some (delivery, error) else none
  | _ => none

/-- What an event is to the delivery. -/
def Entry.of (id : Uuid) (now : Timestamp) : Event → Option Entry
  | .claimed i id' => if id' = id then some (.claimed i) else none
  | .sendStarted i id' => if id' = id then some (.started i now) else none
  | .completed _ => none

/-- What an action leaves in the log. -/
def Entry.left (id : Uuid) (now : Timestamp) (p : Point) (a : Action) (event : Option Event) :
    Option Entry :=
  match p.failure id, a with
  | some (delivery, error), .fail reading =>
    some (.failed (decideRetry error delivery.attemptCount reading).nextAttemptAt)
  | _, _ => event.bind (Entry.of id now)

/-- What a step leaves in the log. -/
def Service.entry (id : Uuid) (now : Timestamp) (s : Service) : Label → Option Entry
  | .start | .enqueue _ => none
  | .act i a =>
    s.dispatchers[i]?.bind fun p =>
      (act s.deliveries i p a).bind fun e => Entry.left id now p a e.event

/-- The dispatchers, the clock, and the log of the delivery. -/
structure Timed where
  service : Service
  clock : Timestamp
  log : List Entry

namespace Timed

/-- The row of the delivery. -/
def row (id : Uuid) (t : Timed) : Option NotificationDelivery :=
  t.service.deliveries.find? (·.id = id)

/-- A step at a time, which the clock has not passed. -/
def step (id : Uuid) (t : Timed) (l : Timestamp × Label) : Option Timed :=
  if t.clock ≤ l.1 ∧ ∀ r ∈ l.2.reading, r ≤ l.1 then
    (t.service.step l.2).map fun service =>
      { service, clock := l.1, log := (t.service.entry id l.1 l.2).toList ++ t.log }
  else none

end Timed

/-- **The machine**, from when the delivery is queued, at whatever the instances are by then. -/
def timed (id : Uuid) : Machine Timed (Timestamp × Label) where
  init t := (∃ d ∈ t.row id, d.status = .queued ∧ d.attemptCount = 0)
    ∧ (∀ p ∈ t.service.dispatchers, p.holds ≠ some id) ∧ t.log = []
  step := Timed.step id

/-! ## What an action does to the delivery -/

/-- An instance that has claimed the delivery and not started its send, nor found that there is
nothing to send. -/
def Point.pends (id : Uuid) : Point → Bool
  | .claimed id' _ => decide (id' = id)
  | .found delivery _ => decide (delivery.id = id) && (content delivery).isSome
  | .idle | .requeueing | .finding | .looping _ | .sending _ _ | .completing _ _ _
  | .failing _ _ _ | .crashed => false

theorem holds_of_pends {id : Uuid} {p : Point} (h : p.pends id) : p.holds = some id := by
  cases p with
  | claimed id' rest => exact congrArg some (of_decide_eq_true h)
  | found delivery rest =>
    exact congrArg some (of_decide_eq_true ((Bool.and_eq_true _ _).mp h).1)
  | idle | requeueing | finding | looping | sending | completing | failing | crashed => cases h

/-- **What an action does to the delivery** with the row `d`: nothing, or one of five. -/
inductive Touches (id : Uuid) (i : ℕ) (d : NotificationDelivery) :
    Point → Action → Point → Option Event → NotificationDelivery → Prop
  | elsewhere {p a p' ev} (hpends : p'.pends id → p.pends id)
      (hholds : p.holds = some id → p'.holds = some id ∨ a = .crash ∨ a = .abort)
      (hentry : ∀ now, Entry.left id now p a ev = none) : Touches id i d p a p' ev d
  | requeued {now ids} (hid : id ∈ ids) (hstale : stale now d) :
      Touches id i d .requeueing (.requeueStale now ids) .finding none (requeue now d)
  | claimed {rest now} (hdue : due now d) :
      Touches id i d (.looping (id :: rest)) (.claim now) (.claimed id rest)
        (some (.claimed i id)) (claim now d)
  | started {d₀ rest} (hid : d₀.id = id) (hcontent : (content d₀).isSome) :
      Touches id i d (.found d₀ rest) .send (.sending d₀ rest) (some (.sendStarted i id)) d
  | completed {d₀ m rest now ack p'} (hid : d₀.id = id) (hp' : p'.pends id = false) :
      Touches id i d (.completing d₀ m rest) (.complete now ack) p' (some (.completed id))
        (complete m (d₀.channel = .email) now d)
  | failed {d₀ error rest now} (hid : d₀.id = id) :
      Touches id i d (.failing d₀ error rest) (.fail now) (.looping rest) none
        (fail (decideRetry error d₀.attemptCount now) now d)

variable {T T' : Deliveries} {i : ℕ} {p : Point} {a : Action} {e : Effect} {id : Uuid}
  {d : NotificationDelivery}

/-- The delivery's row after an update. -/
theorem find?_of_update {q : NotificationDelivery → Bool}
    {f : NotificationDelivery → NotificationDelivery} (h : T.update q f = some T')
    (hf : ∀ d, (f d).id = d.id) (hd : T.find? (·.id = id) = some d) :
    T'.find? (·.id = id) = some (if q d then f d else d) := by
  rw [find?_update h hf, hd]
  rfl

/-- …by its id, or by that of another. -/
theorem find?_of_updateById {f : NotificationDelivery → NotificationDelivery} {id' : Uuid}
    (h : updateById T id' f = some T') (hf : ∀ d, (f d).id = d.id)
    (hd : T.find? (·.id = id) = some d) :
    T'.find? (·.id = id) = some (if id' = id then f d else d) := by
  obtain ⟨-, hupdate⟩ := Option.ite_none_right_eq_some.mp h
  rw [find?_of_update hupdate hf hd]
  simp only [id_of_find? hd, decide_eq_true_eq, eq_comm (a := id)]

/-- An action that neither executes an update of the delivery nor is an event of it. -/
theorem Touches.of_quiet {p' : Point} (hpends : p'.pends id → p.pends id)
    (hholds : p.holds = some id → p'.holds = some id ∨ a = .crash ∨ a = .abort)
    (hfail : ∀ now, a ≠ .fail now) : Touches id i d p a p' none d := by
  refine .elsewhere hpends hholds fun now => ?_
  unfold Entry.left
  split
  · exact absurd rfl (hfail _)
  · rfl

/-- An executed `complete`, acknowledged or not. -/
theorem Touches.of_complete {d₀ : NotificationDelivery} {m : Option String} {rest : List Uuid}
    {now : Timestamp} {ack : Acknowledgement} {p' : Point}
    (h : updateById T d₀.id (complete m (d₀.channel = .email) now) = some T')
    (hd : T.find? (·.id = id) = some d) (hp' : p'.pends id = false) :
    ∃ d', T'.find? (·.id = id) = some d' ∧ Touches id i d (.completing d₀ m rest)
      (.complete now ack) p' (some (.completed d₀.id)) d' := by
  refine ⟨_, find?_of_updateById h (fun _ => rfl) hd, ?_⟩
  by_cases hid : d₀.id = id
  · rw [if_pos hid, hid]
    exact .completed hid hp'
  · rw [if_neg hid]
    refine .elsewhere (fun h => ?_) (fun h => ?_) fun now => rfl
    · exact absurd (hp'.symm.trans h) Bool.false_ne_true
    · exact absurd (Option.some.inj h) hid

/-- **The cases of an action**, as far as the delivery is concerned. -/
theorem touches_of_act (h : act T i p a = some e) (hd : T.find? (·.id = id) = some d) :
    ∃ d', e.deliveries.find? (·.id = id) = some d' ∧ Touches id i d p a e.point e.event d' := by
  unfold act at h
  split at h
  case h_1 =>
    obtain rfl := Option.some.inj h
    exact ⟨d, hd, .of_quiet (fun h => by cases h) (fun h => by cases h) fun _ h => by cases h⟩
  case h_2 now ids =>
    obtain ⟨T', hT', rfl⟩ := Option.map_eq_some_iff.mp h
    refine ⟨_, find?_of_update hT' (fun _ => rfl) hd, ?_⟩
    by_cases hq : d.id ∈ ids ∧ stale now d = true
    · rw [if_pos (by simpa using hq)]
      exact .requeued (id_of_find? hd ▸ hq.1) hq.2
    · rw [if_neg (by simpa using hq)]
      exact .of_quiet (fun h => by cases h) (fun h => by cases h) fun _ h => by cases h
  case h_3 =>
    simp only [Option.ite_none_right_eq_some, Option.some.injEq] at h
    obtain ⟨-, rfl⟩ := h
    exact ⟨d, hd, .of_quiet (fun h => by cases h) (fun h => by cases h) fun _ h => by cases h⟩
  case h_4 =>
    obtain rfl := Option.some.inj h
    exact ⟨d, hd, .of_quiet (fun h => by cases h) (fun h => by cases h) fun _ h => by cases h⟩
  case h_5 id' rest now =>
    split at h
    · rename_i hany
      obtain ⟨T', hT', rfl⟩ := Option.map_eq_some_iff.mp h
      refine ⟨_, find?_of_update hT' (fun _ => rfl) hd, ?_⟩
      by_cases hid : id' = id
      · -- the row that is claimed is the delivery's
        subst hid
        obtain ⟨d', hd', hclaim⟩ := List.any_eq_true.mp hany
        obtain ⟨hid', hdue⟩ := (Bool.and_eq_true _ _).mp hclaim
        obtain rfl : d' = d := T.valid.1.eq hd' (Table.mem_of_find? hd)
          ((of_decide_eq_true hid').trans (id_of_find? hd).symm)
        rw [if_pos hclaim]
        exact .claimed hdue
      · have hother : claimable id' now d = false := by
          simp [claimable, id_of_find? hd, Ne.symm hid]
        rw [hother, if_neg Bool.false_ne_true]
        refine .elsewhere (fun h => ?_) (fun h => by cases h) fun now => ?_
        · exact absurd (of_decide_eq_true h) hid
        · exact if_neg hid
    · obtain rfl := Option.some.inj h
      exact ⟨d, hd, .of_quiet (fun h => by cases h) (fun h => by cases h) fun _ h => by cases h⟩
  case h_6 id' rest =>
    obtain rfl := Option.some.inj h
    refine ⟨d, ?_, ?_⟩
    · cases T.find? (·.id = id') with
      | none => exact hd
      | some d' => exact hd
    · cases hfind : T.find? (·.id = id') with
      | none =>
        refine .of_quiet (fun h => by cases h) (fun h => ?_) fun _ h => by cases h
        obtain rfl : id' = id := Option.some.inj h
        exact absurd (hd.symm.trans hfind) (Option.some_ne_none d)
      | some d' =>
        have hid' := id_of_find? hfind
        refine .of_quiet (fun h => ?_) (fun h => ?_) fun _ h => by cases h
        · obtain ⟨hid, -⟩ := (Bool.and_eq_true _ _).mp h
          exact decide_eq_true (hid'.symm.trans (of_decide_eq_true hid))
        · exact .inl ((congrArg some hid').trans h)
  case h_7 d₀ rest =>
    obtain rfl := Option.some.inj h
    cases hcontent : content d₀ with
    | none => exact ⟨d, hd, .of_quiet (fun h => by cases h) (fun h => .inl h) fun _ h => by cases h⟩
    | some c =>
      refine ⟨d, hd, ?_⟩
      by_cases hid : d₀.id = id
      · rw [hid]
        exact .started hid (by rw [hcontent]; rfl)
      · refine .elsewhere (fun h => by cases h) (fun h => .inl h) fun now => ?_
        exact if_neg hid
  case h_8 =>
    obtain rfl := Option.some.inj h
    exact ⟨d, hd, .of_quiet (fun h => by cases h) (fun h => .inl h) fun _ h => by cases h⟩
  case h_9 =>
    obtain rfl := Option.some.inj h
    exact ⟨d, hd, .of_quiet (fun h => by cases h) (fun h => .inl h) fun _ h => by cases h⟩
  case h_10 d₀ m rest now ack =>
    cases ack with
    | acknowledged =>
      obtain ⟨T', hT', rfl⟩ := Option.map_eq_some_iff.mp h
      exact Touches.of_complete hT' hd rfl
    | refused message =>
      obtain rfl := Option.some.inj h
      exact ⟨d, hd, .of_quiet (fun h => by cases h) (fun h => .inl h) fun _ h => by cases h⟩
    | lost message =>
      obtain ⟨T', hT', rfl⟩ := Option.map_eq_some_iff.mp h
      exact Touches.of_complete hT' hd rfl
  case h_11 d₀ error rest now =>
    obtain ⟨T', hT', rfl⟩ := Option.map_eq_some_iff.mp h
    refine ⟨_, find?_of_updateById hT' (fun _ => rfl) hd, ?_⟩
    by_cases hid : d₀.id = id
    · rw [if_pos hid]
      exact .failed hid
    · rw [if_neg hid]
      refine .elsewhere (fun h => by cases h) (fun h => ?_) fun now => ?_
      · exact absurd (Option.some.inj h) hid
      · simp [Entry.left, Point.failure, hid]
  case h_12 =>
    simp only [Option.ite_none_right_eq_some, Option.some.injEq] at h
    obtain ⟨-, rfl⟩ := h
    exact ⟨d, hd, .of_quiet (fun h => by cases h) (fun _ => .inr (.inr rfl)) fun _ h => by cases h⟩
  case h_13 =>
    simp only [Option.ite_none_left_eq_some, Option.some.injEq] at h
    obtain ⟨-, rfl⟩ := h
    exact ⟨d, hd, .of_quiet (fun h => by cases h) (fun _ => .inr (.inl rfl)) fun _ h => by cases h⟩
  case h_14 => cases h

end ResourceHive.Notifications
