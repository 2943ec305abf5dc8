import ResourceHive.Notifications.Delivery

/-!
# Notifications/SentFinal — whether a delivery that was sent stays sent

A worker holds a delivery from its claim to its `complete` or `fail`.  Meanwhile `requeueStale` may
give the delivery to another worker, which may complete it; the first worker is then **overtaken**,
and if it still starts its send, or records a failure, a delivery that is `SENT` is sent again, or
goes back to be retried.  As long as no overtaken worker does either, `SENT` is final (`sent_final`).
-/

namespace ResourceHive.Notifications

open DeliveryRepository

/-- The delivery an instance holds. -/
def Point.holds : Point → Option Uuid
  | .claimed id _ => some id
  | .found delivery _ | .sending delivery _ | .completing delivery _ _ | .failing delivery _ _ =>
    some delivery.id
  | .idle | .requeueing | .finding | .looping _ | .crashed => none

/-- The delivery has been completed since the instance's last claim of it. -/
def overtaken (i : ℕ) (id : Uuid) : List Event → Bool
  | [] => false
  | .claimed j id' :: history => !(decide (j = i) && decide (id' = id)) && overtaken i id history
  | .sendStarted _ _ :: history => overtaken i id history
  | .completed id' :: history => decide (id' = id) || overtaken i id history

/-- The delivery a send from this point is of, if one is started. -/
def Point.sends : Point → Option Uuid
  | .found delivery _ => if (content delivery).isSome then some delivery.id else none
  | _ => none

/-- The delivery a failure recorded from this point is of. -/
def Point.fails : Point → Option Uuid
  | .failing delivery _ _ => some delivery.id
  | _ => none

/-- **The condition**: an instance that starts a send, or records a failure, is not overtaken. -/
def NotOvertaken (s : Service) : Label → Prop
  | .act i .send => ∀ p ∈ s.dispatchers[i]?, ∀ id ∈ p.sends, overtaken i id s.history = false
  | .act i (.fail _) => ∀ p ∈ s.dispatchers[i]?, ∀ id ∈ p.fails, overtaken i id s.history = false
  | _ => True

/-- The event is a claim of the delivery, or the start of a send of it. -/
def Event.starts (id : Uuid) : Event → Prop
  | .claimed _ id' | .sendStarted _ id' => id' = id
  | .completed _ => False

/-! ## What an action can do -/

/-- **The cases of an action**: it executes no update, or one of the four. -/
inductive Acts (T : Deliveries) (i : ℕ) : Point → Action → Effect → Prop
  | quiet {p a p'} (h : p'.holds = none ∨ p'.holds = p.holds) : Acts T i p a ⟨T, p', none⟩
  | requeued {a now T'} {ids : List Uuid}
      (h : T.update (fun d => decide (d.id ∈ ids) && stale now d) (requeue now) = some T') :
      Acts T i .requeueing a ⟨T', .finding, none⟩
  | claimed {id rest now T'} (hany : T.rows.any (claimable id now))
      (h : T.update (claimable id now) (claim now) = some T') :
      Acts T i (.looping (id :: rest)) (.claim now) ⟨T', .claimed id rest, some (.claimed i id)⟩
  | started {d rest} (h : (content d).isSome) :
      Acts T i (.found d rest) .send ⟨T, .sending d rest, some (.sendStarted i d.id)⟩
  | completed {d m rest now ack p' T'} (hp' : p'.holds = none ∨ p'.holds = some d.id)
      (h : updateById T d.id (complete m (d.channel = .email) now) = some T') :
      Acts T i (.completing d m rest) (.complete now ack) ⟨T', p', some (.completed d.id)⟩
  | failed {d e rest now T'}
      (h : updateById T d.id (fail (decideRetry e d.attemptCount now) now) = some T') :
      Acts T i (.failing d e rest) (.fail now) ⟨T', .looping rest, none⟩

variable {T T' : Deliveries} {i : ℕ} {p : Point} {a : Action} {e : Effect} {id : Uuid}

theorem id_of_find? {d : NotificationDelivery} (h : T.find? (·.id = id) = some d) : d.id = id := by
  simpa using Table.pred_of_find? h

theorem act_cases (h : act T i p a = some e) : Acts T i p a e := by
  unfold act at h
  split at h
  case h_1 =>
    obtain rfl := Option.some.inj h
    exact .quiet (.inl rfl)
  case h_2 =>
    obtain ⟨T', hT', rfl⟩ := Option.map_eq_some_iff.mp h
    exact .requeued hT'
  case h_3 =>
    simp only [Option.ite_none_right_eq_some, Option.some.injEq] at h
    obtain ⟨-, rfl⟩ := h
    exact .quiet (.inl rfl)
  case h_4 =>
    obtain rfl := Option.some.inj h
    exact .quiet (.inl rfl)
  case h_5 =>
    split at h
    · rename_i hany
      obtain ⟨T', hT', rfl⟩ := Option.map_eq_some_iff.mp h
      exact .claimed hany hT'
    · obtain rfl := Option.some.inj h
      exact .quiet (.inl rfl)
  case h_6 id rest =>
    obtain rfl := Option.some.inj h
    cases hfind : T.find? (·.id = id) with
    | none => exact .quiet (.inl rfl)
    | some d =>
      exact .quiet (.inr (congrArg some (id_of_find? hfind)))
  case h_7 d rest =>
    obtain rfl := Option.some.inj h
    cases hcontent : content d with
    | none => exact .quiet (.inr rfl)
    | some _ => exact .started (by simp [hcontent])
  case h_8 =>
    obtain rfl := Option.some.inj h
    exact .quiet (.inr rfl)
  case h_9 =>
    obtain rfl := Option.some.inj h
    exact .quiet (.inr rfl)
  case h_10 ack =>
    cases ack with
    | acknowledged =>
      obtain ⟨T', hT', rfl⟩ := Option.map_eq_some_iff.mp h
      exact .completed (.inl rfl) hT'
    | refused message =>
      obtain rfl := Option.some.inj h
      exact .quiet (.inr rfl)
    | lost message =>
      obtain ⟨T', hT', rfl⟩ := Option.map_eq_some_iff.mp h
      exact .completed (.inr rfl) hT'
  case h_11 =>
    obtain ⟨T', hT', rfl⟩ := Option.map_eq_some_iff.mp h
    exact .failed hT'
  case h_12 =>
    simp only [Option.ite_none_right_eq_some, Option.some.injEq] at h
    obtain ⟨-, rfl⟩ := h
    exact .quiet (.inl rfl)
  case h_13 =>
    simp only [Option.ite_none_left_eq_some, Option.some.injEq] at h
    obtain ⟨-, rfl⟩ := h
    exact .quiet (.inl rfl)
  case h_14 => cases h

/-! ## What an update does to a status -/

theorem find?_update {q : NotificationDelivery → Bool}
    {f : NotificationDelivery → NotificationDelivery} (h : T.update q f = some T')
    (hf : ∀ d, (f d).id = d.id) :
    T'.find? (·.id = id) = (T.find? (·.id = id)).map fun d => if q d then f d else d :=
  Table.find?_update h fun d => by rw [hf]

/-- An update guarded by a status other than `SENT` touches no delivery that is sent, and sends
none. -/
theorem status?_of_guarded {q : NotificationDelivery → Bool}
    {f : NotificationDelivery → NotificationDelivery} (h : T.update q f = some T')
    (hf : ∀ d, (f d).id = d.id) (hq : ∀ d, q d → d.status ≠ .sent)
    (hfs : ∀ d, (f d).status ≠ .sent) :
    status? T' id = status? T id ∨ status? T id ≠ some .sent ∧ status? T' id ≠ some .sent := by
  rw [status?, status?, find?_update h hf]
  cases hfind : T.find? (·.id = id) with
  | none => exact .inl rfl
  | some d =>
    by_cases hd : q d
    · exact .inr ⟨by simp [hq d hd], by simp [hd, hfs]⟩
    · exact .inl (by simp [hd])

/-- An update of the row with an id gives it the status it writes. -/
theorem status?_updateById {f : NotificationDelivery → NotificationDelivery}
    {status : DeliveryStatus} (h : updateById T id f = some T') (hf : ∀ d, (f d).id = d.id)
    (hstatus : ∀ d, (f d).status = status) : status? T' id = some status := by
  simp only [updateById, Option.ite_none_right_eq_some] at h
  obtain ⟨hany, hupdate⟩ := h
  obtain ⟨d, hd⟩ : ∃ d, T.find? (·.id = id) = some d :=
    Option.isSome_iff_exists.mp (List.find?_isSome.mpr (List.any_eq_true.mp hany))
  rw [status?, find?_update hupdate hf, hd]
  simp [id_of_find? hd, hstatus]

/-- …and leaves every other status. -/
theorem status?_updateById_of_ne {f : NotificationDelivery → NotificationDelivery} {id' : Uuid}
    (h : updateById T id' f = some T') (hf : ∀ d, (f d).id = d.id) (hne : id ≠ id') :
    status? T' id = status? T id := by
  simp only [updateById, Option.ite_none_right_eq_some] at h
  rw [status?, status?, find?_update h.2 hf]
  cases hfind : T.find? (·.id = id) with
  | none => rfl
  | some d =>
    have hd : d.id ≠ id' := id_of_find? hfind ▸ hne
    simp [hd]

theorem due_not_sent {now : Timestamp} {d : NotificationDelivery} (h : due now d) :
    d.status ≠ .sent := by
  intro hsent
  simp [due, hsent] at h

theorem stale_not_sent {now : Timestamp} {d : NotificationDelivery} (h : stale now d) :
    d.status ≠ .sent := by
  intro hsent
  simp [stale, hsent] at h

/-- A delivery that can be claimed is not sent. -/
theorem claimable_not_sent {now : Timestamp} (h : T.rows.any (claimable id now)) :
    status? T id ≠ some .sent := by
  obtain ⟨d, hd, hclaim⟩ := List.any_eq_true.mp h
  simp only [claimable, Bool.and_eq_true, decide_eq_true_eq] at hclaim
  intro hsent
  obtain ⟨d', hd', hstatus⟩ := Option.map_eq_some_iff.mp hsent
  obtain rfl : d' = d :=
    T.valid.1.eq (Table.mem_of_find? hd') hd ((id_of_find? hd').trans hclaim.1.symm)
  exact due_not_sent hclaim.2 hstatus

/-- A failure leaves the delivery not sent. -/
theorem status?_fail {decision : RetryDecision} {now : Timestamp}
    (h : updateById T id (fail decision now) = some T') : status? T' id ≠ some .sent := by
  have hstatus : status? T' id = some (if decision.retry then .retryScheduled else .failed) :=
    status?_updateById h (fun _ => rfl) fun _ => rfl
  rw [hstatus]
  split <;> decide

/-- **What an action does to the status of a delivery**: nothing, or it was not sent and is not; or
the action completes it; or it records a failure of it. -/
theorem act_status (h : Acts T i p a e) (id : Uuid) :
    status? e.deliveries id = status? T id
      ∨ (status? T id ≠ some .sent ∧ status? e.deliveries id ≠ some .sent)
      ∨ (status? e.deliveries id = some .sent ∧ e.event = some (.completed id))
      ∨ ∃ d err rest now, p = .failing d err rest ∧ a = .fail now ∧ d.id = id
          ∧ status? e.deliveries id ≠ some .sent := by
  cases h with
  | quiet | started => exact .inl rfl
  | requeued h =>
    have hcases : status? _ id = status? T id
        ∨ status? T id ≠ some .sent ∧ status? _ id ≠ some .sent :=
      status?_of_guarded h (fun _ => rfl) (fun d hd => stale_not_sent (Bool.and_eq_true _ _ ▸ hd).2)
        fun _ => nofun
    rcases hcases with h | h
    · exact .inl h
    · exact .inr (.inl h)
  | claimed hany h =>
    have hcases : status? _ id = status? T id
        ∨ status? T id ≠ some .sent ∧ status? _ id ≠ some .sent :=
      status?_of_guarded h (fun _ => rfl) (fun d hd => due_not_sent (Bool.and_eq_true _ _ ▸ hd).2)
        fun _ => nofun
    rcases hcases with h | h
    · exact .inl h
    · exact .inr (.inl h)
  | @completed d m rest now ack p' T' hp' h =>
    by_cases hid : id = d.id
    · refine .inr (.inr (.inl ⟨?_, by rw [hid]⟩))
      rw [hid]
      exact status?_updateById h (fun _ => rfl) fun _ => rfl
    · exact .inl (status?_updateById_of_ne h (fun _ => rfl) hid)
  | @failed d err rest now T' h =>
    by_cases hid : id = d.id
    · subst hid
      exact .inr (.inr (.inr ⟨d, err, rest, now, rfl, rfl, rfl, status?_fail h⟩))
    · exact .inl (status?_updateById_of_ne h (fun _ => rfl) hid)

/-! ## The invariant -/

/-- **The invariant**: an instance that holds a delivery which is sent has been overtaken. -/
def HoldersOvertaken (s : Service) : Prop :=
  ∀ i p id, s.dispatchers[i]? = some p → p.holds = some id →
    status? s.deliveries id = some .sent → overtaken i id s.history = true

/-- Only the instance's own claim ends its being overtaken. -/
theorem overtaken_cons {j : ℕ} {ev : Event} {history : List Event}
    (h : overtaken j id history = true) (hne : ev ≠ .claimed j id) :
    overtaken j id (ev :: history) = true := by
  cases ev with
  | claimed k id' =>
    have hother : ¬ (k = j ∧ id' = id) := fun ⟨hk, hid⟩ => hne (by rw [hk, hid])
    simp only [overtaken, h, Bool.and_true, Bool.not_eq_true', Bool.and_eq_false_iff,
      decide_eq_false_iff_not]
    exact not_and_or.mp hother
  | sendStarted k id' => exact h
  | completed id' => simp [overtaken, h]

/-- What an action leaves an instance holding: what it held, without a claim; or a delivery it has
claimed, which is not sent. -/
theorem act_holds (h : Acts T i p a e) (hid : e.point.holds = some id) :
    (p.holds = some id ∧ ∀ ev ∈ e.event, ev ≠ .claimed i id)
      ∨ status? e.deliveries id ≠ some .sent := by
  cases h with
  | quiet h =>
    rcases h with h | h
    · rw [h] at hid
      cases hid
    · exact .inl ⟨h ▸ hid, nofun⟩
  | requeued | failed => cases hid
  | claimed hany h =>
    obtain rfl := Option.some.inj hid
    rcases status?_of_guarded h (fun _ => rfl)
      (fun d hd => due_not_sent (Bool.and_eq_true _ _ ▸ hd).2) (fun _ => nofun) with h | h
    · exact .inr (h ▸ claimable_not_sent hany)
    · exact .inr h.2
  | started h => exact .inl ⟨hid, by rintro _ ⟨⟩ ⟨⟩⟩
  | completed hp' h =>
    rcases hp' with hp' | hp'
    · rw [hp'] at hid
      cases hid
    · exact .inl ⟨hp'.symm.trans hid, by rintro _ ⟨⟩ ⟨⟩⟩

/-- An action claims for the instance that takes it. -/
theorem act_claims (h : Acts T i p a e) {j : ℕ} {id' : Uuid} (hev : e.event = some (.claimed j id')) :
    j = i := by
  cases h with
  | claimed hany h =>
    obtain ⟨rfl, -⟩ := Event.claimed.inj (Option.some.inj hev)
    rfl
  | quiet | requeued | started | completed | failed => cases hev

/-- After an action that is not its claim, an instance is overtaken if its delivery is sent. -/
theorem overtaken_act {j : ℕ} {history : List Event} (h : Acts T i p a e)
    (hclaim : ∀ ev ∈ e.event, ev ≠ .claimed j id)
    (hinv : status? T id = some .sent → overtaken j id history = true)
    (hsent : status? e.deliveries id = some .sent) :
    overtaken j id (e.event.toList ++ history) = true := by
  rcases act_status h id with hsame | ⟨-, hnot⟩ | ⟨-, hev⟩ | ⟨_, _, _, _, -, -, -, hnot⟩
  · have hold := hinv (hsame ▸ hsent)
    cases hev : e.event with
    | none => exact hold
    | some ev => exact overtaken_cons hold (hclaim ev hev)
  · exact absurd hsent hnot
  · simp [hev, overtaken]
  · exact absurd hsent hnot

/-- The parts of an action's step. -/
theorem step_act {s t : Service} (h : s.step (.act i a) = some t) :
    ∃ p e, s.dispatchers[i]? = some p ∧ Acts s.deliveries i p a e ∧
      t = ⟨e.deliveries, s.dispatchers.set i e.point, e.event.toList ++ s.history⟩ := by
  obtain ⟨p, hp, h⟩ := Option.bind_eq_some_iff.mp h
  obtain ⟨e, he, rfl⟩ := Option.map_eq_some_iff.mp h
  exact ⟨p, e, hp, act_cases he, rfl⟩

/-- A delivery that is sent was so before another was enqueued. -/
theorem status?_enqueue {d : NotificationDelivery} (h : T.insert d = some T')
    (hd : d.status = .queued) (hsent : status? T' id = some .sent) : status? T id = some .sent := by
  rw [status?, Table.find?_insert h] at hsent
  cases hfind : T.find? (·.id = id) with
  | none =>
    rw [hfind] at hsent
    by_cases hid : d.id = id <;> simp [hid, hd] at hsent
  | some d' => simpa [status?, hfind] using hsent

/-- **The step lemma of the invariant**; it needs no condition. -/
theorem HoldersOvertaken.step {s t : Service} {l : Label} (h : HoldersOvertaken s)
    (hstep : s.step l = some t) : HoldersOvertaken t := by
  intro j p id hp hid hsent
  cases l with
  | start =>
    obtain rfl := Option.some.inj hstep
    rw [List.getElem?_append] at hp
    split at hp
    · exact h j p id hp hid hsent
    · obtain rfl := List.mem_singleton.mp (List.mem_of_getElem? hp)
      cases hid
  | enqueue delivery =>
    simp only [Service.step, Option.ite_none_right_eq_some, Option.map_eq_some_iff] at hstep
    obtain ⟨hqueued, T', hT', rfl⟩ := hstep
    exact h j p id hp hid (status?_enqueue hT' hqueued hsent)
  | act i a =>
    obtain ⟨q, e, hq, hacts, rfl⟩ := step_act hstep
    by_cases hij : i = j
    · -- the instance that acts
      subst hij
      obtain ⟨-, rfl⟩ : i < s.dispatchers.length ∧ e.point = p := by
        simpa [List.getElem?_set] using hp
      rcases act_holds hacts hid with ⟨hold, hclaim⟩ | hnot
      · exact overtaken_act hacts hclaim (h i q id hq hold) hsent
      · exact absurd hsent hnot
    · -- another instance, which keeps what it holds
      rw [List.getElem?_set_ne hij] at hp
      refine overtaken_act hacts (fun ev hev heq => hij ?_) (h j p id hp hid) hsent
      exact (act_claims hacts (heq ▸ hev)).symm

theorem holdersOvertaken_init {s : Service} (h : machine.init s) : HoldersOvertaken s := by
  intro j p id hp
  simp [h.1] at hp

/-- The invariant holds in every state of every run. -/
theorem holdersOvertaken_of_reachable {ok : Service → Label → Prop} {s : Service}
    (h : machine.Reachable ok s) : HoldersOvertaken s :=
  h.invariant holdersOvertaken_init fun hs _ hstep => hs.step hstep

/-! ## Sent is final -/

/-- A delivery stays sent, and nothing claims it or starts a send of it. -/
def StaysSent (id : Uuid) (s t : Service) : Prop :=
  status? t.deliveries id = some .sent ∧
    ∃ new, t.history = new ++ s.history ∧ ∀ ev ∈ new, ¬ ev.starts id

theorem StaysSent.trans {s t u : Service} (h : StaysSent id s t) (h' : StaysSent id t u) :
    StaysSent id s u := by
  obtain ⟨-, new, hnew, hstarts⟩ := h
  obtain ⟨hsent, new', hnew', hstarts'⟩ := h'
  refine ⟨hsent, new' ++ new, by rw [hnew', hnew, List.append_assoc], fun ev hev => ?_⟩
  rcases List.mem_append.mp hev with hev | hev
  · exact hstarts' ev hev
  · exact hstarts ev hev

/-- What an action that claims a delivery, or starts a send of it, finds. -/
theorem act_starts (h : Acts T i p a e) {ev : Event} (hev : e.event = some ev)
    (hstarts : ev.starts id) :
    status? T id ≠ some .sent ∨
      ∃ d rest, p = .found d rest ∧ a = .send ∧ (content d).isSome ∧ d.id = id := by
  cases h with
  | quiet | requeued | failed => cases hev
  | claimed hany h =>
    obtain rfl := Option.some.inj hev
    obtain rfl : _ = id := hstarts
    exact .inl (claimable_not_sent hany)
  | @started d rest hcontent =>
    obtain rfl := Option.some.inj hev
    exact .inr ⟨d, rest, rfl, rfl, hcontent, hstarts⟩
  | completed hp' h =>
    obtain rfl := Option.some.inj hev
    exact hstarts.elim

/-- **The step lemma**: a step that meets the condition leaves what is sent alone. -/
theorem staysSent_step {s t : Service} {l : Label} (hinv : HoldersOvertaken s)
    (hok : NotOvertaken s l) (hstep : s.step l = some t)
    (hsent : status? s.deliveries id = some .sent) : StaysSent id s t := by
  cases l with
  | start =>
    obtain rfl := Option.some.inj hstep
    exact ⟨hsent, [], rfl, nofun⟩
  | enqueue delivery =>
    simp only [Service.step, Option.ite_none_right_eq_some, Option.map_eq_some_iff] at hstep
    obtain ⟨-, T', hT', rfl⟩ := hstep
    refine ⟨?_, [], rfl, nofun⟩
    obtain ⟨d, hd, hstatus⟩ := Option.map_eq_some_iff.mp hsent
    rw [status?, Table.find?_insert hT', hd]
    exact congrArg some hstatus
  | act i a =>
    obtain ⟨p, e, hp, hacts, rfl⟩ := step_act hstep
    refine ⟨?_, _, rfl, fun ev hev hstarts => ?_⟩
    · rcases act_status hacts id with hsame | ⟨hnot, -⟩ | ⟨hsent', -⟩ |
        ⟨d, err, rest, now, rfl, rfl, rfl, -⟩
      · exact hsame.trans hsent
      · exact absurd hsent hnot
      · exact hsent'
      · -- a failure of the delivery: its instance would be overtaken
        have hover := hinv i _ d.id hp rfl hsent
        exact absurd hover (Bool.eq_false_iff.mp (hok _ hp d.id rfl))
    · rcases act_starts hacts (Option.mem_toList.mp hev) hstarts with hnot |
        ⟨d, rest, rfl, rfl, hcontent, rfl⟩
      · exact absurd hsent hnot
      · have hover := hinv i _ d.id hp rfl hsent
        exact absurd hover (Bool.eq_false_iff.mp (hok _ hp d.id (if_pos hcontent)))

/-- **Sent is final**, in every run in which no overtaken instance starts a send or records a
failure. -/
theorem sent_final {s t : Service} (hs : machine.Reachable NotOvertaken s)
    (hrun : machine.Run NotOvertaken s t) (hsent : status? s.deliveries id = some .sent) :
    status? t.deliveries id = some .sent ∧
      ∃ new, t.history = new ++ s.history ∧ ∀ ev ∈ new, ¬ ev.starts id := by
  have key := hrun.invariant (I := fun t => HoldersOvertaken t ∧ StaysSent id s t)
    ⟨holdersOvertaken_of_reachable hs, hsent, [], rfl, nofun⟩
    fun ⟨hinv, hstays⟩ hok hstep =>
      ⟨hinv.step hstep, hstays.trans (staysSent_step hinv hok hstep hstays.1)⟩
  exact key.2

/-! ## The condition is exact -/

/-- A delivery that has been completed is sent, as long as the condition is met. -/
theorem sent_of_completed {s : Service} (hs : machine.Reachable NotOvertaken s)
    (h : .completed id ∈ s.history) : status? s.deliveries id = some .sent := by
  have key := hs.invariant (I := fun s => HoldersOvertaken s ∧
    ∀ id, .completed id ∈ s.history → status? s.deliveries id = some .sent)
    (fun hinit => ⟨holdersOvertaken_init hinit, by simp [hinit.2]⟩) ?_
  · exact key.2 id h
  · intro s l t ⟨hinv, hall⟩ hok hstep
    refine ⟨hinv.step hstep, fun id hid => ?_⟩
    by_cases hold : .completed id ∈ s.history
    · exact (staysSent_step hinv hok hstep (hall id hold)).1
    · -- completed in this step
      cases l with
      | start =>
        obtain rfl := Option.some.inj hstep
        exact absurd hid hold
      | enqueue delivery =>
        obtain ⟨-, hstep⟩ := Option.ite_none_right_eq_some.mp hstep
        obtain ⟨T', -, rfl⟩ := Option.map_eq_some_iff.mp hstep
        exact absurd hid hold
      | act i a =>
        obtain ⟨p, e, hp, hacts, rfl⟩ := step_act hstep
        have hev := Option.mem_toList.mp ((List.mem_append.mp hid).resolve_right hold)
        cases hacts with
        | quiet | requeued | failed => cases hev
        | claimed | started => cases hev
        | completed hp' hupdate =>
          obtain rfl := Event.completed.inj (Option.some.inj hev)
          exact status?_updateById hupdate (fun _ => rfl) fun _ => rfl

theorem completed_of_overtaken {i : ℕ} {history : List Event}
    (h : overtaken i id history = true) : .completed id ∈ history := by
  induction history with
  | nil => cases h
  | cons ev history ih =>
    cases ev with
    | claimed j id' => exact List.mem_cons_of_mem _ (ih (Bool.and_eq_true _ _ ▸ h).2)
    | sendStarted j id' => exact List.mem_cons_of_mem _ (ih h)
    | completed id' =>
      rcases Bool.or_eq_true _ _ ▸ h with hid | h
      · obtain rfl := of_decide_eq_true hid
        exact List.mem_cons_self
      · exact List.mem_cons_of_mem _ (ih h)

/-- **The condition is exact**: as long as it has been met, a step leaves everything that is sent
alone if and only if it meets it too. -/
theorem staysSent_iff {s t : Service} {l : Label} (hs : machine.Reachable NotOvertaken s)
    (hstep : s.step l = some t) :
    (∀ id, status? s.deliveries id = some .sent → StaysSent id s t) ↔ NotOvertaken s l := by
  refine ⟨fun hall => ?_, fun hok id hsent =>
    staysSent_step (holdersOvertaken_of_reachable hs) hok hstep hsent⟩
  have hsent {i : ℕ} {id : Uuid} (hover : overtaken i id s.history = true) :=
    sent_of_completed hs (completed_of_overtaken hover)
  cases l with
  | start | enqueue => trivial
  | act i a =>
    cases a with
    | send =>
      intro p hp id hid
      obtain ⟨d, rest, c, rfl, hc, rfl⟩ : ∃ d rest c,
          p = .found d rest ∧ content d = some c ∧ d.id = id := by
        cases p with
        | found d rest =>
          simp only [Point.sends, Option.mem_def, Option.ite_none_right_eq_some,
            Option.some.injEq] at hid
          obtain ⟨c, hc⟩ := Option.isSome_iff_exists.mp hid.1
          exact ⟨d, rest, c, rfl, hc, hid.2⟩
        | idle | requeueing | finding | looping | claimed | sending | completing | failing
        | crashed => cases hid
      by_contra hover
      obtain ⟨-, new, hnew, hstarts⟩ := hall d.id (hsent (Bool.eq_true_of_not_eq_false hover))
      simp only [Service.step, Option.mem_def.mp hp, Option.bind_some, act, hc, Option.map_some,
        Option.some.injEq] at hstep
      have hevent : t.history = [.sendStarted i d.id] ++ s.history := hstep ▸ rfl
      have hnew' := List.append_cancel_right (hnew.symm.trans hevent)
      exact hstarts (.sendStarted i d.id) (by simp [hnew']) rfl
    | fail now =>
      intro p hp id hid
      cases p with
      | failing d e rest =>
        obtain rfl := Option.some.inj hid
        by_contra hover
        have hstays := hall d.id (hsent (Bool.eq_true_of_not_eq_false hover))
        simp only [Service.step, Option.mem_def.mp hp, Option.bind_some, act, Option.map_map,
          Option.map_eq_some_iff] at hstep
        obtain ⟨T', hT', rfl⟩ := hstep
        exact status?_fail hT' hstays.1
      | idle | requeueing | finding | looping | claimed | found | sending | completing
      | crashed => cases hid
    | tick | requeueStale | findDue | finish | claim | findUnique | answer | complete | abort
    | crash => trivial

/-! ## Two dispatchers -/

instance (s : Service) : ∀ l : Label, Decidable (NotOvertaken s l)
  | .act i .send => inferInstanceAs (Decidable (∀ p ∈ s.dispatchers[i]?, _))
  | .act i (.fail _) => inferInstanceAs (Decidable (∀ p ∈ s.dispatchers[i]?, _))
  | .start | .enqueue _ | .act _ .tick | .act _ (.requeueStale _ _) | .act _ (.findDue _ _)
  | .act _ .finish | .act _ (.claim _) | .act _ .findUnique | .act _ (.answer _)
  | .act _ (.complete _ _) | .act _ .abort | .act _ .crash => inferInstanceAs (Decidable True)

/-- A push notification in the queue. -/
def push : NotificationDelivery where
  id := 1
  channel := .push
  destination := "device"
  subject := some "Booking"
  body := some "Confirmed"
  createdAt := 0
  updatedAt := 0

/-- No instance yet. -/
def oneQueued : Service := ⟨⟨[push], by decide⟩, [], []⟩

/-- One instance from its start to a send, at a time. -/
def upToSend (i : ℕ) (now : Timestamp) (stale : List Uuid) (row : NotificationDelivery) :
    List Label :=
  [.start, .act i .tick, .act i (.requeueStale now stale), .act i (.findDue now [row]),
    .act i (.claim now), .act i .findUnique, .act i .send]

/-- The first instance's send takes more than five minutes; the second requeues the delivery, sends
and completes it.  The first one is overtaken, but its send ends well, and the delivery stays
sent. -/
theorem sent_final_of_overtaken : ∃ s t, machine.Reachable NotOvertaken s
    ∧ machine.Run NotOvertaken s t ∧ overtaken 0 1 s.history = true
    ∧ t.dispatchers = [.looping [], .looping []] ∧ status? t.deliveries 1 = some .sent := by
  obtain ⟨s, hs, hp⟩ := machine.exists_reachable_guarded (s := oneQueued)
    (p := fun s l => decide (NotOvertaken s l))
    (q := fun s => decide (status? s.deliveries 1 = some .sent) && overtaken 0 1 s.history
      && ((machine.guarded fun s l => decide (NotOvertaken s l)).exec s
          [.act 0 (.answer (.ok none)), .act 0 (.complete 400003 .acknowledged)]).any
        fun t => decide (t.dispatchers = [.looping [], .looping []]))
    (upToSend 0 1 [] push
      ++ upToSend 1 400000 [1] { push with attemptCount := 1, updatedAt := 400000 }
      ++ [.act 1 (.answer (.ok none)), .act 1 (.complete 400002 .acknowledged)])
    ⟨rfl, rfl⟩ (by decide)
  simp only [Bool.and_eq_true, decide_eq_true_eq] at hs hp
  obtain ⟨⟨hsent, hover⟩, hrest⟩ := hp
  obtain ⟨t, hrun, ht⟩ := machine.exists_run_guarded _ hrest
  simp only [decide_eq_true_eq] at hrun ht
  exact ⟨s, t, hs, hrun, hover, ht, (sent_final hs hrun hsent).1⟩

/-- **A delivery that was sent is sent again.**  The first instance's send takes more than five
minutes; the second requeues the delivery, sends and completes it; then the first one's send fails,
which schedules a retry, and the second instance claims and sends once more. -/
theorem sent_twice : ∃ s t, machine.Reachable Machine.free s ∧ machine.Run Machine.free s t
    ∧ status? s.deliveries 1 = some .sent ∧ status? t.deliveries 1 = some .processing
    ∧ t.history = .sendStarted 1 1 :: .claimed 1 1 :: s.history := by
  obtain ⟨s, hs, hp⟩ := machine.exists_reachable (s := oneQueued)
    (p := fun s => decide (status? s.deliveries 1 = some .sent)
      && (machine.exec s
          [.act 0 (.answer (.error (.provider "TIMEOUT" true "late"))), .act 0 (.fail 400003),
            .act 1 .finish, .act 1 .tick, .act 1 (.requeueStale 440000 []),
            .act 1 (.findDue 440000 [{ push with
              status := .retryScheduled, attemptCount := 2, nextAttemptAt := some 430003
              lastError := some "TIMEOUT: late", updatedAt := 400003 }]),
            .act 1 (.claim 440000), .act 1 .findUnique, .act 1 .send]).any fun t =>
          decide (status? t.deliveries 1 = some .processing)
            && decide (t.history = .sendStarted 1 1 :: .claimed 1 1 :: s.history))
    (upToSend 0 1 [] push
      ++ upToSend 1 400000 [1] { push with attemptCount := 1, updatedAt := 400000 }
      ++ [.act 1 (.answer (.ok none)), .act 1 (.complete 400002 .acknowledged)])
    ⟨rfl, rfl⟩ (by decide)
  simp only [Bool.and_eq_true, decide_eq_true_eq] at hp
  obtain ⟨hsent, hrest⟩ := hp
  obtain ⟨t, hrun, ht⟩ := machine.exists_run _ hrest
  simp only [Bool.and_eq_true, decide_eq_true_eq] at ht
  exact ⟨s, t, hs, hrun, hsent, ht.1, ht.2⟩

end ResourceHive.Notifications
