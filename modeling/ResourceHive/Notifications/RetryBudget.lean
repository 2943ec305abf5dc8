import ResourceHive.Notifications.Attempts

/-!
# Notifications/RetryBudget — whether a delivery is attempted at most six times

The budget is enforced where a failure is recorded, against the attempt count that the instance has
read.  `requeueStale` does not consult it, and neither `fail` nor a send looks at what has become of
the delivery since the instance claimed it.  So it holds as long as no step takes those branches
beyond the budget (`Orderly`).  What carries it: the sends started and those that may still be are
within the budget, together with the claim that a delivery waiting for one makes possible (`Inv`).
-/

namespace ResourceHive.Notifications

open DeliveryRepository

/-! ## The condition -/

/-- The instances that may still start a send of the delivery. -/
def pending (id : Uuid) (s : Service) : ℕ := s.dispatchers.countP (·.pends id)

/-- The instances that hold the delivery. -/
def holders (id : Uuid) (s : Service) : ℕ := s.dispatchers.countP fun p => decide (p.holds = some id)

/-- The sends that have been started, and those that may still be without another claim. -/
def Timed.used (id : Uuid) (t : Timed) : ℕ := starts t.log + pending id t.service

namespace NotificationDelivery

/-- Sent, or failed for good. -/
def settled (d : NotificationDelivery) : Bool :=
  decide (d.status = .sent) || decide (d.status = .failed)

/-- Due, now or later. -/
def waits (d : NotificationDelivery) : Bool :=
  decide (d.status = .queued) || decide (d.status = .retryScheduled)

end NotificationDelivery

/-- **The condition**: the delivery is put back by `requeueStale` only within the budget; a failure
that is to be retried is recorded of a delivery that is not settled and, where it has been claimed
again since, only within the budget; with the budget used up, the last instance that holds the
delivery in processing neither crashes nor breaks off; and an instance whose claim is older than the
last recorded failure does not start a send before the time which that failure set. -/
def Orderly (id : Uuid) (t : Timed) : Timestamp × Label → Prop
  | (_, .act _ (.requeueStale reading ids)) =>
    id ∈ ids → ∀ d ∈ t.row id, stale reading d → t.used id < budget
  | (_, .act i (.fail reading)) =>
    ∀ p ∈ t.service.dispatchers[i]?, ∀ f ∈ p.failure id,
      (decideRetry f.2 f.1.attemptCount reading).retry → ∀ d ∈ t.row id,
        d.settled = false ∧ (d.attemptCount = f.1.attemptCount ∨ t.used id < budget)
  | (_, .act i .crash) | (_, .act i .abort) =>
    ∀ p ∈ t.service.dispatchers[i]?, p.holds = some id → starts t.log = budget →
      ∀ d ∈ t.row id, d.status = .processing → 1 < holders id t.service
  | (now, .act i .send) =>
    ∀ p ∈ t.service.dispatchers[i]?, p.pends id → claimedSince i t.log = false →
      ∀ n ∈ lastRetry t.log, n ≤ now
  | _ => True

/-! ## A step -/

/-- **The cases of a step**: nothing happens to the delivery, or an instance acts. -/
inductive DeliveryStep (id : Uuid) (t : Timed) (d : NotificationDelivery) :
    Timestamp × Label → Timed → NotificationDelivery → Prop
  | idle {l u} (hlog : u.log = t.log) (hpending : pending id u.service = pending id t.service)
      (hholders : holders id u.service = holders id t.service) : DeliveryStep id t d l u d
  | act {now i a p p' ev u d'} (hp : t.service.dispatchers[i]? = some p)
      (hreading : ∀ r ∈ a.reading, r ≤ now) (h : Touches id i d p a p' ev d')
      (hlog : u.log = (Entry.left id now p a ev).toList ++ t.log)
      (hpending : pending id u.service + (if p.pends id then 1 else 0) =
        pending id t.service + if p'.pends id then 1 else 0)
      (hholders : holders id u.service + (if p.holds = some id then 1 else 0) =
        holders id t.service + if p'.holds = some id then 1 else 0) :
      DeliveryStep id t d (now, .act i a) u d'

section Step

variable {id : Uuid} {t u : Timed} {l : Timestamp × Label} {d d' : NotificationDelivery}

/-- A count of the instances, when one of them has moved. -/
theorem countP_set {q : Point → Bool} {ps : List Point} {i : ℕ} {p p' : Point}
    (h : ps[i]? = some p) : (ps.set i p').countP q + (if q p then 1 else 0) =
      ps.countP q + if q p' then 1 else 0 := by
  obtain ⟨hi, hget⟩ := List.getElem?_eq_some_iff.mp h
  rw [List.countP_set hi, hget]
  by_cases hq : q p
  · have hpos : 0 < ps.countP q := List.countP_pos_iff.mpr ⟨p, List.mem_of_getElem? h, hq⟩
    rw [if_pos hq]
    omega
  · rw [if_neg hq]
    omega

theorem deliveryStep_of_step (hrow : t.row id = some d) (h : t.step id l = some u) :
    t.clock ≤ u.clock ∧ u.clock = l.1 ∧ ∃ d', u.row id = some d' ∧ DeliveryStep id t d l u d' := by
  obtain ⟨now, l⟩ := l
  simp only [Timed.step, Option.ite_none_right_eq_some, Option.map_eq_some_iff] at h
  obtain ⟨⟨hclock, hreading⟩, s, hs, rfl⟩ := h
  refine ⟨hclock, rfl, ?_⟩
  cases l with
  | start =>
    obtain rfl := Option.some.inj hs
    refine ⟨d, hrow, .idle rfl ?_ ?_⟩
    · simp [pending, Point.pends]
    · simp [holders, Point.holds]
  | enqueue delivery =>
    simp only [Service.step, Option.ite_none_right_eq_some, Option.map_eq_some_iff] at hs
    obtain ⟨-, T', hT', rfl⟩ := hs
    refine ⟨d, ?_, .idle rfl rfl rfl⟩
    rw [Timed.row, Table.find?_insert hT']
    exact congrArg (Option.or · _) hrow
  | act i a =>
    obtain ⟨p, hp, hs⟩ := Option.bind_eq_some_iff.mp hs
    obtain ⟨e, he, rfl⟩ := Option.map_eq_some_iff.mp hs
    obtain ⟨d', hd', htouch⟩ := touches_of_act he hrow
    refine ⟨d', hd', .act hp hreading htouch ?_ (countP_set hp) ?_⟩
    · simp [Service.entry, hp, he]
    · have hset := @countP_set (fun p => decide (p.holds = some id)) _ _ _ e.point hp
      simpa only [holders, decide_eq_true_eq] using hset

/-! ## The invariant -/

/-- **The invariant**, with the row `d` of the delivery. -/
structure Within (id : Uuid) (t : Timed) (d : NotificationDelivery) : Prop where
  /-- Each send has a claim of its own. -/
  claims : t.used id ≤ d.attemptCount
  /-- A delivery that waits may be claimed, and sent, once more. -/
  spare : t.used id + (if d.waits then 1 else 0) ≤ budget
  held : starts t.log = budget → d.status = .processing → 0 < holders id t.service
  status : d.status ≠ .quarantined
  /-- Before the time that the last failure set, nobody has claimed the delivery again. -/
  early : ∀ n ∈ lastRetry t.log, n ≤ t.clock ∨
    (d.status = .retryScheduled ∧ d.nextAttemptAt = some n ∨ d.status = .sent)
      ∧ ∀ j, claimedSince j t.log = false
  onTime : OnTime t.log

/-- What does not wait is never due. -/
theorem due_eq_false (h : d.waits = false) (now : Timestamp) : due now d = false := by
  simp only [NotificationDelivery.waits, Bool.or_eq_false_iff, decide_eq_false_iff_not] at h
  simp [due, h.1, h.2]

/-- What is due waits. -/
theorem waits_of_due {now : Timestamp} (h : due now d) : d.waits := by
  simp only [due, Bool.or_eq_true, Bool.and_eq_true, decide_eq_true_eq] at h
  simp only [NotificationDelivery.waits, Bool.or_eq_true, decide_eq_true_eq]
  exact h.imp_right And.left

theorem settled_of_due {now : Timestamp} (h : due now d) : d.settled = false := by
  have hwaits := waits_of_due h
  simp only [NotificationDelivery.waits, Bool.or_eq_true, decide_eq_true_eq] at hwaits
  rcases hwaits with hstatus | hstatus <;> simp [NotificationDelivery.settled, hstatus]

theorem settled_of_stale {now : Timestamp} (h : stale now d) : d.settled = false := by
  rw [stale, Bool.and_eq_true] at h
  simp [NotificationDelivery.settled, of_decide_eq_true h.1]

/-- A retry is granted for the first five attempts only. -/
theorem attemptCount_of_retry {error : DeliveryError} {attemptCount : ℕ} {now : Timestamp}
    (h : (decideRetry error attemptCount now).retry) : attemptCount < budget := by
  simp only [decideRetry, Bool.and_eq_true] at h
  by_cases h0 : attemptCount = 0
  · rw [h0]
    exact Nat.succ_pos _
  · rw [if_neg h0] at h
    obtain ⟨delay, hdelay⟩ := Option.isSome_iff_exists.mp h.2
    obtain ⟨hlt, -⟩ := List.getElem?_eq_some_iff.mp hdelay
    rw [budget]
    omega

/-- …and sets the time of the next attempt. -/
theorem retry_of_nextAttemptAt {error : DeliveryError} {attemptCount : ℕ} {now n : Timestamp}
    (h : n ∈ (decideRetry error attemptCount now).nextAttemptAt) :
    (decideRetry error attemptCount now).retry := by
  exact (Option.ite_none_right_eq_some.mp h).1

variable (h : Within id t d)
include h

/-- The clock moves, and nothing else. -/
theorem Within.idle (hclock : t.clock ≤ u.clock) (hlog : u.log = t.log)
    (hpending : pending id u.service = pending id t.service)
    (hholders : holders id u.service = holders id t.service) : Within id u d := by
  have hused : u.used id = t.used id := by rw [Timed.used, hlog, hpending, Timed.used]
  refine ⟨hused ▸ h.claims, hused ▸ h.spare, hholders ▸ hlog ▸ h.held, h.status, fun n hn => ?_,
    hlog ▸ h.onTime⟩
  rw [hlog] at hn ⊢
  exact (h.early n hn).imp_left fun hle => hle.trans hclock

/-- An action that leaves the delivery alone. -/
theorem Within.elsewhere {now : Timestamp} {i : ℕ} {a : Action} {p p' : Point}
    (hok : Orderly id t (now, .act i a)) (hrow : t.row id = some d)
    (hp : t.service.dispatchers[i]? = some p) (hpends : p'.pends id → p.pends id)
    (hholds : p.holds = some id → p'.holds = some id ∨ a = .crash ∨ a = .abort)
    (hclock : t.clock ≤ u.clock) (hlog : u.log = t.log)
    (hpending : pending id u.service + (if p.pends id then 1 else 0) =
      pending id t.service + if p'.pends id then 1 else 0)
    (hholders : holders id u.service + (if p.holds = some id then 1 else 0) =
      holders id t.service + if p'.holds = some id then 1 else 0) : Within id u d := by
  have hused : u.used id ≤ t.used id := by
    rw [Timed.used, Timed.used, hlog]
    by_cases h' : p'.pends id
    · rw [if_pos h', if_pos (hpends h')] at hpending
      omega
    · rw [if_neg h'] at hpending
      omega
  refine ⟨hused.trans h.claims, (Nat.add_le_add_right hused _).trans h.spare,
    fun hstarts hstatus => ?_, h.status, fun n hn => ?_, hlog ▸ h.onTime⟩
  · rw [hlog] at hstarts
    have hheld := h.held hstarts hstatus
    by_cases hhold : p.holds = some id
    · rw [if_pos hhold] at hholders
      rcases hholds hhold with hhold' | rfl | rfl
      · rw [if_pos hhold'] at hholders
        omega
      · have := hok p hp hhold hstarts d hrow hstatus
        omega
      · have := hok p hp hhold hstarts d hrow hstatus
        omega
    · rw [if_neg hhold] at hholders
      omega
  · rw [hlog] at hn ⊢
    exact (h.early n hn).imp_left fun hle => hle.trans hclock

/-- `requeueStale` puts the delivery back. -/
theorem Within.requeued {reading : Timestamp} (hbudget : t.used id < budget)
    (hstale : stale reading d) (hclock : t.clock ≤ u.clock) (hlog : u.log = t.log)
    (hpending : pending id u.service = pending id t.service) :
    Within id u (requeue reading d) := by
  have hused : u.used id = t.used id := by rw [Timed.used, hlog, hpending, Timed.used]
  have hprocessing : d.status = .processing := by
    rw [stale, Bool.and_eq_true] at hstale
    exact of_decide_eq_true hstale.1
  refine ⟨hused ▸ h.claims, ?_, (fun _ hstatus => by cases hstatus), (fun hstatus => by cases hstatus),
    fun n hn => ?_, hlog ▸ h.onTime⟩
  · rw [hused]
    exact hbudget
  · rw [hlog] at hn
    rcases h.early n hn with hle | ⟨⟨hretry, -⟩ | hsent, -⟩
    · exact .inl (hle.trans hclock)
    · cases hprocessing.symm.trans hretry
    · cases hprocessing.symm.trans hsent

/-- The delivery is claimed. -/
theorem Within.claimed {reading : Timestamp} {i : ℕ} (hdue : due reading d)
    (hreading : reading ≤ u.clock) (hclock : t.clock ≤ u.clock)
    (hlog : u.log = .claimed i :: t.log)
    (hpending : pending id u.service = pending id t.service + 1)
    (hholders : holders id u.service = holders id t.service + 1) :
    Within id u (claim reading d) := by
  have hused : u.used id = t.used id + 1 := by
    rw [Timed.used, hlog, hpending, Timed.used]
    rfl
  have hspare := h.spare
  rw [if_pos (waits_of_due hdue)] at hspare
  refine ⟨?_, ?_, fun _ _ => ?_, (fun hstatus => by cases hstatus), fun n hn => ?_, ?_⟩
  · rw [hused]
    exact Nat.succ_le_succ h.claims
  · rw [hused]
    exact hspare
  · omega
  · rw [hlog] at hn
    refine .inl ?_
    rcases h.early n hn with hle | ⟨⟨hretry, hnext⟩ | hsent, -⟩
    · exact hle.trans hclock
    · simp only [due, hretry, hnext, Option.any_some, reduceCtorEq, decide_false, Bool.false_or,
        decide_true, Bool.true_and, decide_eq_true_eq] at hdue
      exact hdue.trans hreading
    · exact absurd hsent (due_not_sent hdue)
  · rw [hlog]
    exact h.onTime

/-- A send is started. -/
theorem Within.started {i : ℕ}
    (hok : claimedSince i t.log = false → ∀ n ∈ lastRetry t.log, n ≤ u.clock)
    (hclock : t.clock ≤ u.clock) (hlog : u.log = .started i u.clock :: t.log)
    (hpending : pending id u.service + 1 = pending id t.service)
    (hholders : 0 < holders id u.service) : Within id u d := by
  have hused : u.used id = t.used id := by
    rw [Timed.used, hlog, Timed.used, ← hpending, starts, List.countP_cons]
    simp only [Entry.isStart, if_true, starts]
    omega
  refine ⟨hused ▸ h.claims, hused ▸ h.spare, fun _ _ => hholders, h.status, fun n hn => ?_, ?_⟩
  · rw [hlog] at hn ⊢
    exact (h.early n hn).imp_left fun hle => hle.trans hclock
  · rw [hlog]
    refine ⟨fun n hn => ?_, h.onTime⟩
    cases hsince : claimedSince i t.log with
    | false => exact hok hsince n hn
    | true =>
      rcases h.early n hn with hle | ⟨-, hnone⟩
      · exact hle.trans hclock
      · exact absurd (hsince.symm.trans (hnone i)) Bool.true_eq_false.mp

/-- The delivery is completed. -/
theorem Within.completed {m : Option String} {scrub : Bool} {reading : Timestamp}
    (hclock : t.clock ≤ u.clock) (hlog : u.log = t.log)
    (hpending : pending id u.service = pending id t.service) :
    Within id u (complete m scrub reading d) := by
  have hused : u.used id = t.used id := by rw [Timed.used, hlog, hpending, Timed.used]
  refine ⟨hused ▸ h.claims, ?_, (fun _ hstatus => by cases hstatus),
    (fun hstatus => by cases hstatus), fun n hn => ?_, hlog ▸ h.onTime⟩
  · rw [hused]
    exact (Nat.le_add_right _ _).trans h.spare
  · rw [hlog] at hn ⊢
    exact (h.early n hn).imp (fun hle => hle.trans hclock) fun ⟨_, hnone⟩ => ⟨.inr rfl, hnone⟩

/-- A failure of the delivery is recorded. -/
theorem Within.failed {error : DeliveryError} {attemptCount : ℕ} {reading : Timestamp}
    (hok : (decideRetry error attemptCount reading).retry →
      d.attemptCount = attemptCount ∨ t.used id < budget)
    (hlog : u.log = .failed (decideRetry error attemptCount reading).nextAttemptAt :: t.log)
    (hpending : pending id u.service = pending id t.service) :
    Within id u (fail (decideRetry error attemptCount reading) reading d) := by
  have hused : u.used id = t.used id := by
    rw [Timed.used, hlog, hpending, Timed.used]
    rfl
  have honTime : OnTime u.log := by
    rw [hlog]
    exact h.onTime
  cases hretry : (decideRetry error attemptCount reading).retry with
  | true =>
    have hspare : t.used id < budget := by
      rcases hok hretry with hsame | hspare
      · exact (hsame ▸ h.claims).trans_lt (attemptCount_of_retry hretry)
      · exact hspare
    refine ⟨hused ▸ h.claims, ?_, ?_, ?_, fun n hn => .inr ⟨.inl ⟨?_, ?_⟩, fun j => ?_⟩, honTime⟩
    · rw [hused]
      exact (Nat.add_le_add_left (ite_le_one le_rfl (Nat.zero_le 1)) _).trans hspare
    · simp [fail, hretry]
    · simp [fail, hretry]
    · simp [fail, hretry]
    · rw [hlog] at hn
      have hnext : (decideRetry error attemptCount reading).nextAttemptAt = some n := hn
      simp [fail, hnext]
    · rw [hlog]
      rfl
  | false =>
    refine ⟨hused ▸ h.claims, ?_, ?_, ?_, fun n hn => ?_, honTime⟩
    · rw [hused]
      simpa [fail, hretry, NotificationDelivery.waits] using (Nat.le_add_right _ _).trans h.spare
    · simp [fail, hretry]
    · simp [fail, hretry]
    · rw [hlog] at hn
      exact absurd (hretry.symm.trans (retry_of_nextAttemptAt hn)) Bool.false_ne_true

omit h in
/-- An instance that holds the delivery is counted. -/
theorem holders_pos {s : Service} {i : ℕ} {p : Point} (hp : s.dispatchers[i]? = some p)
    (hholds : p.holds = some id) : 0 < holders id s :=
  List.countP_pos_iff.mpr ⟨p, List.mem_of_getElem? hp, decide_eq_true hholds⟩

/-- **The step lemma**: an orderly step keeps the invariant, and a delivery that is settled stays
so. -/
theorem Within.step (hok : Orderly id t l) (hrow : t.row id = some d) (hstep : t.step id l = some u) :
    ∃ d', u.row id = some d' ∧ Within id u d' ∧ (d.settled → d'.settled) := by
  obtain ⟨hclock, hnow, d', hrow', hmove⟩ := deliveryStep_of_step hrow hstep
  refine ⟨d', hrow', ?_⟩
  cases hmove with
  | idle hlog hpending hholders => exact ⟨h.idle hclock hlog hpending hholders, fun hd => hd⟩
  | @act now i a p p' ev u d' hp hreading htouch hlog hpending hholders =>
    obtain rfl : u.clock = now := hnow
    cases htouch with
    | elsewhere hpends hholds hentry =>
      rw [hentry] at hlog
      exact ⟨h.elsewhere hok hrow hp hpends hholds hclock hlog hpending hholders, fun hd => hd⟩
    | @requeued reading ids hid hstale =>
      refine ⟨h.requeued (hok hid d hrow hstale) hstale hclock hlog hpending, fun hsettled => ?_⟩
      exact absurd hsettled (Bool.eq_false_iff.mp (settled_of_stale hstale))
    | @claimed rest reading hdue =>
      have hlog : u.log = .claimed i :: t.log := by
        simp [hlog, Entry.left, Point.failure, Entry.of]
      refine ⟨h.claimed hdue (hreading reading rfl) hclock hlog ?_ ?_, fun hsettled => ?_⟩
      · simpa [Point.pends] using hpending
      · simpa [Point.holds] using hholders
      · exact absurd hsettled (Bool.eq_false_iff.mp (settled_of_due hdue))
    | @started d₀ rest hid hcontent =>
      have hlog : u.log = .started i u.clock :: t.log := by
        simp [hlog, Entry.left, Point.failure, Entry.of]
      have hpends : (Point.found d₀ rest).pends id := by simp [Point.pends, hid, hcontent]
      refine ⟨h.started (fun hsince => hok _ hp hpends hsince) hclock hlog ?_ ?_, fun hd => hd⟩
      · rw [if_pos hpends] at hpending
        exact hpending
      · have hholds : (Point.found d₀ rest).holds = some id := congrArg some hid
        have hholds' : (Point.sending d₀ rest).holds = some id := hholds
        rw [if_pos hholds, if_pos hholds'] at hholders
        have := holders_pos hp hholds
        omega
    | @completed d₀ m rest reading ack p' hid hp' =>
      rw [hp'] at hpending
      exact ⟨h.completed hclock hlog hpending, fun _ => rfl⟩
    | @failed d₀ error rest reading hid =>
      have hfailure : (Point.failing d₀ error rest).failure id = some (d₀, error) := if_pos hid
      have hok' (hretry : (decideRetry error d₀.attemptCount reading).retry) :=
        hok _ hp _ hfailure hretry d hrow
      have hlog : u.log =
          .failed (decideRetry error d₀.attemptCount reading).nextAttemptAt :: t.log := by
        simp [hlog, Entry.left, hfailure]
      refine ⟨h.failed (fun hretry => (hok' hretry).2) hlog hpending, fun hsettled => ?_⟩
      cases hretry : (decideRetry error d₀.attemptCount reading).retry with
      | true => exact absurd hsettled (Bool.eq_false_iff.mp (hok' hretry).1)
      | false => simp [NotificationDelivery.settled, fail, hretry]

end Step

/-! ## Every run -/

section Runs

variable {id : Uuid} {s t u : Timed}

/-- The sends started are not forgotten. -/
theorem starts_mono {l : Timestamp × Label} (h : t.step id l = some u) :
    starts t.log ≤ starts u.log := by
  obtain ⟨-, h⟩ := Option.ite_none_right_eq_some.mp h
  obtain ⟨service, -, rfl⟩ := Option.map_eq_some_iff.mp h
  exact (List.suffix_append _ _).sublist.countP_le

theorem Within.init (h : (timed id).init s) : ∃ d, s.row id = some d ∧ Within id s d := by
  obtain ⟨⟨d, hrow, hqueued, hcount⟩, hholds, hlog⟩ := h
  have hpending : pending id s.service = 0 :=
    List.countP_eq_zero.mpr fun p hp hpends => hholds p hp (holds_of_pends hpends)
  have hused : s.used id = 0 := by rw [Timed.used, hlog, hpending]; rfl
  refine ⟨d, hrow, ?_, ?_, fun hstarts => ?_, ?_, fun n hn => ?_, ?_⟩
  · rw [hused]
    exact Nat.zero_le _
  · rw [hused, Nat.zero_add]
    exact (ite_le_one le_rfl (Nat.zero_le 1)).trans (by decide)
  · rw [hlog] at hstarts
    cases hstarts
  · rw [hqueued]
    decide
  · rw [hlog] at hn
    cases hn
  · rw [hlog]
    trivial

/-- The invariant holds in every state of every orderly run. -/
theorem within_of_reachable (h : (timed id).Reachable (Orderly id) t) :
    ∃ d, t.row id = some d ∧ Within id t d :=
  h.invariant (I := fun t => ∃ d, t.row id = some d ∧ Within id t d) Within.init
    fun ⟨_, hrow, hwithin⟩ hok hstep =>
      let ⟨d', hrow', hwithin', _⟩ := hwithin.step hok hrow hstep
      ⟨d', hrow', hwithin'⟩

/-- A delivery that is settled stays so. -/
theorem settled_of_run {d : NotificationDelivery} (h : (timed id).Reachable (Orderly id) t)
    (hrun : (timed id).Run (Orderly id) t u) (hrow : t.row id = some d) (hsettled : d.settled) :
    ∃ d', u.row id = some d' ∧ d'.settled := by
  obtain ⟨d₀, hrow₀, hwithin⟩ := within_of_reachable h
  obtain rfl := Option.some.inj (hrow₀.symm.trans hrow)
  have key := hrun.invariant
    (I := fun u => ∃ d', u.row id = some d' ∧ Within id u d' ∧ d'.settled)
    ⟨d₀, hrow₀, hwithin, hsettled⟩ ?_
  · obtain ⟨d', hrow', -, hsettled'⟩ := key
    exact ⟨d', hrow', hsettled'⟩
  · intro t l u ⟨d, hrow, hwithin, hsettled⟩ hok hstep
    obtain ⟨d', hrow', hwithin', hstays⟩ := hwithin.step hok hrow hstep
    exact ⟨d', hrow', hwithin', hstays hsettled⟩

theorem starts_of_run (hrun : (timed id).Run (Orderly id) t u) : starts t.log ≤ starts u.log :=
  hrun.invariant (I := fun u => starts t.log ≤ starts u.log) le_rfl
    fun h _ hstep => h.trans (starts_mono hstep)

/-! ## The budget is kept -/

/-- **The retry budget is kept**: at most six sends, and with six the delivery is not due, and is
sent or has failed once no instance is at it; and none starts early. -/
structure KeepsBudget (id : Uuid) (t : Timed) : Prop where
  starts_le : starts t.log ≤ 6
  spent : starts t.log = 6 → ∃ d ∈ t.row id,
    (∀ now, due now d = false) ∧ (holders id t.service = 0 → d.settled)
  onTime : OnTime t.log

/-- With the budget used up, a delivery does not wait. -/
theorem Within.waits_eq_false {d : NotificationDelivery} (h : Within id t d)
    (hstarts : starts t.log = 6) : d.waits = false := by
  have hspare := h.spare
  rw [Timed.used, hstarts] at hspare
  by_contra hwaits
  rw [if_pos (Bool.eq_true_of_not_eq_false hwaits)] at hspare
  have : budget = 6 := rfl
  omega

theorem Within.keepsBudget {d : NotificationDelivery} (hrow : t.row id = some d)
    (h : Within id t d) : KeepsBudget id t := by
  refine ⟨(Nat.le_add_right _ _).trans ((Nat.le_add_right _ _).trans h.spare), fun hstarts => ?_,
    h.onTime⟩
  have hwaits := h.waits_eq_false hstarts
  refine ⟨d, hrow, due_eq_false hwaits, fun hholders => ?_⟩
  cases hstatus : d.status with
  | sent | failed => simp [NotificationDelivery.settled, hstatus]
  | queued | retryScheduled => simp [NotificationDelivery.waits, hstatus] at hwaits
  | processing => exact absurd hholders (h.held hstarts hstatus).ne'
  | quarantined => exact absurd hstatus h.status

/-- **The retry budget is kept in every orderly run**, and a delivery that has used it up, or is
settled, is never due again. -/
theorem retry_budget (h : (timed id).Reachable (Orderly id) t) :
    KeepsBudget id t ∧ ∀ u, (timed id).Run (Orderly id) t u → ∀ d ∈ t.row id,
      starts t.log = 6 ∨ d.settled → ∃ d' ∈ u.row id,
        (∀ now, due now d' = false) ∧ (d.settled → d'.settled) := by
  obtain ⟨d, hrow, hwithin⟩ := within_of_reachable h
  refine ⟨hwithin.keepsBudget hrow, fun u hrun d' hrow' hend => ?_⟩
  obtain rfl := Option.some.inj (hrow.symm.trans hrow')
  cases hsettled : d.settled with
  | true =>
    obtain ⟨d', hrow', hsettled'⟩ := settled_of_run h hrun hrow hsettled
    refine ⟨d', hrow', fun now => ?_, fun _ => hsettled'⟩
    by_contra hdue
    exact Bool.false_ne_true
      ((settled_of_due (Bool.eq_true_of_not_eq_false hdue)).symm.trans hsettled')
  | false =>
    rw [hsettled] at hend
    have hstarts := hend.resolve_right Bool.false_ne_true
    obtain ⟨d', hrow', hwithin'⟩ := within_of_reachable (h.run hrun)
    have hstarts' : starts u.log = 6 :=
      le_antisymm (hwithin'.keepsBudget hrow').starts_le (hstarts ▸ starts_of_run hrun)
    exact ⟨d', hrow', due_eq_false (hwithin'.waits_eq_false hstarts'),
      fun h => absurd h Bool.false_ne_true⟩

end Runs

/-! ## Retries, and crashes -/

instance (id : Uuid) (t : Timed) : ∀ l : Timestamp × Label, Decidable (Orderly id t l)
  | (_, .act _ (.requeueStale _ ids)) => inferInstanceAs (Decidable (id ∈ ids → _))
  | (_, .act i (.fail _)) | (_, .act i .crash) | (_, .act i .abort) | (_, .act i .send) =>
    inferInstanceAs (Decidable (∀ p ∈ t.service.dispatchers[i]?, _))
  | (_, .start) | (_, .enqueue _) | (_, .act _ .tick) | (_, .act _ (.findDue _ _))
  | (_, .act _ .finish) | (_, .act _ (.claim _)) | (_, .act _ .findUnique)
  | (_, .act _ (.answer _)) | (_, .act _ (.complete _ _)) => inferInstanceAs (Decidable True)

/-- The delivery is queued, and there is no instance yet. -/
def oneTimed : Timed := ⟨oneQueued, 0, []⟩

/-- Instance `k` is started, takes the delivery at its time and crashes in its send. -/
def crashing (k : ℕ) : List (Timestamp × Label) :=
  let now : Timestamp := 400000 * k
  let row := if k = 0 then push else { push with attemptCount := k, updatedAt := now }
  (upToSend k now (if k = 0 then [] else [1]) row ++ [Label.act k .crash]).map fun l => (now, l)

/-- Instance `k` makes attempt `k`, at the time of the retry, and records a transient failure. -/
def failing (k : ℕ) : List (Timestamp × Label) :=
  let now : Timestamp := (delays.take k).sum
  let row := if k = 0 then push else { push with
    status := .retryScheduled, attemptCount := k, nextAttemptAt := some now
    lastError := some "TIMEOUT: late", updatedAt := (delays.take (k - 1)).sum }
  (upToSend k now [] row ++ [Label.act k (.answer (.error (.provider "TIMEOUT" true "late"))),
    .act k (.fail now)]).map fun l => (now, l)

/-- Six transient failures, after which the delivery has failed, at whatever a further instance
does. -/
theorem retry_budget_of_failures :
    ∃ t u, (timed 1).Reachable (Orderly 1) t ∧ (timed 1).Run (Orderly 1) t u
      ∧ starts t.log = 6 ∧ KeepsBudget 1 t
      ∧ u.service.dispatchers.length = 7 ∧ ∃ d ∈ u.row 1, ∀ now, due now d = false := by
  obtain ⟨t, ht, hp⟩ := (timed 1).exists_reachable_guarded (s := oneTimed)
    (p := fun t l => decide (Orderly 1 t l))
    (q := fun t => decide (starts t.log = 6)
      && (((timed 1).guarded fun t l => decide (Orderly 1 t l)).exec t
          [(40000000, .start), (40000000, .act 6 .tick),
            (40000000, .act 6 (.requeueStale 40000000 [1])),
            (40000000, .act 6 (.findDue 40000000 []))]).any
        fun u : Timed => decide (u.service.dispatchers.length = 7))
    ((List.range 6).flatMap failing)
    ⟨⟨push, rfl, rfl, rfl⟩, fun p hp => absurd hp List.not_mem_nil, rfl⟩ (by decide)
  simp only [Bool.and_eq_true, decide_eq_true_eq] at ht hp
  obtain ⟨hstarts, hrest⟩ := hp
  obtain ⟨u, hrun, hu⟩ := (timed 1).exists_run_guarded _ hrest
  simp only [decide_eq_true_eq] at hrun hu
  obtain ⟨hkeeps, hnever⟩ := retry_budget ht
  obtain ⟨d, hd, -⟩ := hkeeps.spent hstarts
  obtain ⟨d', hd', hdue, -⟩ := hnever u hrun d hd (.inl hstarts)
  exact ⟨t, u, ht, hrun, hstarts, hkeeps, hu, d', hd', hdue⟩

/-- **A seventh send is started**: each instance crashes in its send, and the next one requeues the
delivery more than five minutes later. -/
theorem budget_exceeded :
    ∃ t, (timed 1).Reachable Machine.free t ∧ starts t.log = 7 ∧ ¬ KeepsBudget 1 t := by
  obtain ⟨t, ht, hp⟩ := (timed 1).exists_reachable (s := oneTimed)
    (p := fun t => decide (starts t.log = 7)) ((List.range 7).flatMap crashing)
    ⟨⟨push, rfl, rfl, rfl⟩, fun p hp => absurd hp List.not_mem_nil, rfl⟩ (by decide)
  have hstarts := of_decide_eq_true hp
  refine ⟨t, ht, hstarts, fun h => ?_⟩
  have := h.starts_le
  omega

end ResourceHive.Notifications
