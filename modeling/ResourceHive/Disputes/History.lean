import ResourceHive.Disputes.Service
import ResourceHive.Resources.Holds

/-!
# Disputes/History — a dispute's events record each status it has had

The event of a transition is written from what its transaction read, and the update that goes with
it is guarded by the status that was read: if another transition came first, neither is written.  So
the events of a dispute form a chain to its status, along the transitions that are allowed
(`disputes_keep_history`).
-/

namespace ResourceHive.Disputes

open Bookings (Booking BookingStatus)
open Resources (BookingDispute DisputeStatus UpdateDisputeDto DisputeRecord AuthenticatedUser
  Transition)

/-! ## The trail of a dispute -/

/-- **A trail to a status**: the first event opens the dispute, and each later one leads from the
status before it to one that is allowed. -/
inductive Trail : List BookingDisputeEvent → DisputeStatus → Prop
  | opened {e : BookingDisputeEvent} (hfrom : e.fromStatus = none) (hto : e.toStatus = .opened) :
      Trail [e] .opened
  | moved {es : List BookingDisputeEvent} {s : DisputeStatus} {e : BookingDisputeEvent}
      (h : Trail es s) (hfrom : e.fromStatus = some s) (hto : e.toStatus ∈ s.allowedTransitions) :
      Trail (es ++ [e]) e.toStatus

variable {db db' : Database} {t : Transition} {event : Option BookingDisputeEvent}

theorem eventsOf_append (events : List BookingDisputeEvent) (e : BookingDisputeEvent) (id : Uuid) :
    eventsOf (events ++ [e]) id = eventsOf events id ++ if e.disputeId = id then [e] else [] := by
  rw [eventsOf, List.filter_append, eventsOf]
  by_cases h : e.disputeId = id <;> simp [h]

theorem eventsOf_eq_nil {events : List BookingDisputeEvent} {id : Uuid}
    (h : ∀ e ∈ events, e.disputeId ≠ id) : eventsOf events id = [] :=
  List.filter_eq_nil_iff.mpr fun e he => by simp [h e he]

/-! ## The invariant -/

/-- The booking is there, and completed. -/
def IsCompleted (db : Database) (bookingId : Uuid) : Prop :=
  ∃ b ∈ db.tables.bookings, b.id = bookingId ∧ b.status = .completed

/-- **What holds of the database.** -/
structure Sound (db : Database) : Prop where
  completed : ∀ d ∈ db.disputes, IsCompleted db d.bookingId
  trail : ∀ d ∈ db.disputes, Trail (eventsOf db.events.rows d.id) d.status
  recorded : ∀ e ∈ db.events, ∃ d ∈ db.disputes, d.id = e.disputeId

/-- **The event of a transition records it.** -/
structure Records (t : Transition) (event : Option BookingDisputeEvent) : Prop where
  unchanged : t.status = none → event = none
  changed : ∀ s ∈ t.status, s ∈ t.expectedStatus.allowedTransitions
    ∧ ∃ e, event = some e ∧ e.disputeId = t.disputeId ∧ e.fromStatus = some t.expectedStatus
      ∧ e.toStatus = s

/-- What a call relies on where it is. -/
def At (db : Database) : Point → Prop
  | .openExisting bookingId _ | .opening bookingId _ _ => IsCompleted db bookingId
  | .transitioning t event => Records t event
  | .openMembership _ _ | .openBooking _ _ _ | .transition _ _ _ | .transitionManage _ _ _
  | .returned | .failed _ => True

theorem IsCompleted.keeps {bookingId : Uuid} (h : IsCompleted db bookingId)
    (hkeeps : KeepsCompleted db.tables db'.tables) : IsCompleted db' bookingId := by
  obtain ⟨b, hb, rfl, hcompleted⟩ := h
  exact hkeeps b hb hcompleted

theorem keepsCompleted_of_eq (h : db'.tables.bookings = db.tables.bookings) :
    KeepsCompleted db.tables db'.tables :=
  fun b hb hcompleted => ⟨b, h ▸ hb, rfl, hcompleted⟩

theorem At.keeps {p : Point} (h : At db p) (hkeeps : KeepsCompleted db.tables db'.tables) :
    At db' p := by
  cases p with
  | openExisting | opening => exact IsCompleted.keeps h hkeeps
  | openMembership | openBooking | transition | transitionManage | transitioning | returned
  | failed => exact h

/-! ## The reads -/

/-- No status is allowed after itself. -/
theorem not_mem_allowedTransitions (s : DisputeStatus) : s ∉ s.allowedTransitions := by
  cases s <;> decide

/-- Nothing is allowed after a terminal status. -/
theorem allowedTransitions_eq_nil {s : DisputeStatus} (h : s.terminal) :
    s.allowedTransitions = [] := by
  cases s with
  | resolved | rejected => rfl
  | opened | underReview => cases h

/-- **A transition is recorded**: its status is allowed after the one that was read, so that it is
another one, and there is an event. -/
theorem records_of_transition {record : DisputeRecord} {dto : UpdateDisputeDto}
    {user : AuthenticatedUser} {now : Timestamp}
    (h : Resources.transition record dto user now = .ok t) (eventId : Uuid) :
    Records t (transitionEvent record dto user eventId) := by
  simp only [Resources.transition] at h
  split_ifs at h with hallowed hnotes
  obtain rfl := Except.ok.inj h
  refine ⟨fun hnone => ?_, fun s hs => ?_⟩
  · rw [transitionEvent, show dto.status = none from hnone]
    rfl
  · have hstatus : dto.status = some s := hs
    simp only [hstatus, Option.any_some, decide_eq_true_eq, not_not] at hallowed
    have hne : s ≠ record.dispute.status := fun heq =>
      not_mem_allowedTransitions s (heq ▸ hallowed)
    have hevent : transitionEvent record dto user eventId = some ⟨eventId, record.dispute.id,
        user.userId, some record.dispute.status, s, dto.resolutionNotes.join.map trim⟩ := by
      rw [transitionEvent, hstatus, Option.filter_some, if_pos (by simpa using hne)]
      rfl
    exact ⟨hallowed, _, hevent, rfl, rfl, rfl⟩

theorem at_read {p p' : Point} {x : Reading} (hread : p.next db x = some p') (h : At db p) :
    At db p' := by
  cases p with
  | openMembership bookingId user =>
    obtain rfl := Option.some.inj hread
    split
    · trivial
    · split <;> trivial
  | openBooking bookingId userId root =>
    obtain rfl := Option.some.inj hread
    split
    · trivial
    · next booking hbooking =>
      split
      · trivial
      · next hcompleted =>
        have hkey := Table.pred_of_find? hbooking
        simp only [Bool.and_eq_true, decide_eq_true_eq] at hkey
        exact ⟨booking, Table.mem_of_find? hbooking, hkey.1.1, not_not.mp hcompleted⟩
  | openExisting bookingId userId =>
    obtain rfl := Option.some.inj hread
    split
    · trivial
    · exact h
  | transition disputeId dto user =>
    obtain rfl := Option.some.inj hread
    split <;> trivial
  | transitionManage record dto user =>
    obtain rfl := Option.some.inj hread
    split
    · trivial
    · split
      · trivial
      · next hok => exact records_of_transition hok _
  | opening | transitioning | returned | failed => cases hread

/-! ## The commits -/

theorem mem_expected {d : BookingDispute} (hfound : ∃ d ∈ db.disputes, expected t d)
    (hd : d ∈ db.disputes) : expected t d ↔ d.id = t.disputeId := by
  obtain ⟨d₀, hd₀, h₀⟩ := hfound
  have hkey := h₀
  simp only [expected, Bool.and_eq_true, decide_eq_true_eq] at hkey ⊢
  constructor
  · exact fun h => h.1
  · intro hid
    obtain rfl := db.disputes.valid.1.eq hd hd₀ (hid.trans hkey.1.symm)
    exact hkey

/-- **A dispute is opened**: its booking is completed, and its one event opens it. -/
theorem Sound.opening {bookingId userId : Uuid} {x : Reading} (h : Sound db)
    (hcompleted : IsCompleted db bookingId)
    (hrep : code.replay (openWrites bookingId userId x) db = some db') : Sound db' := by
  obtain ⟨hinsert, htables, hevents⟩ := replay_opening hrep
  have hkeeps : KeepsCompleted db.tables db'.tables := keepsCompleted_of_eq (by rw [htables])
  have hrows := Table.insert_eq_some.mp hinsert
  have hunique := db'.disputes.valid.1
  rw [hrows] at hunique
  refine ⟨fun d hd => ?_, fun d hd => ?_, fun e he => ?_⟩
  · rcases (Table.mem_insert hinsert).mp hd with hd | rfl
    · exact (h.completed d hd).keeps hkeeps
    · exact hcompleted.keeps hkeeps
  · rw [hevents, eventsOf_append]
    rcases (Table.mem_insert hinsert).mp hd with hd | rfl
    · have hne : x.disputeId ≠ d.id := (hunique.ne_of_append hd).symm
      rw [if_neg hne, List.append_nil]
      exact h.trail d hd
    · rw [if_pos rfl, eventsOf_eq_nil, List.nil_append]
      · exact .opened rfl rfl
      · intro e he hid
        -- an event under the new id would be of a dispute that is there already
        obtain ⟨d, hd, hde⟩ := h.recorded e he
        exact hunique.ne_of_append hd (hde.trans hid)
  · rw [← Table.mem_rows, hevents, List.mem_append, List.mem_singleton] at he
    rcases he with he | rfl
    · obtain ⟨d, hd, hid⟩ := h.recorded e he
      exact ⟨d, (Table.mem_insert hinsert).mpr (.inl hd), hid⟩
    · exact ⟨_, (Table.mem_insert hinsert).mpr (.inr rfl), rfl⟩

/-- **A dispute is moved**: its event continues its trail from the status that was read, which is
the one it still has. -/
theorem Sound.transitioning (h : Sound db) (hrecords : Records t event)
    (hmoved : Moved db db' t event) : Sound db' := by
  have hkeeps : KeepsCompleted db.tables db'.tables := keepsCompleted_of_eq hmoved.bookings
  refine ⟨fun d' hd' => ?_, fun d' hd' => ?_, fun e he => ?_⟩
  · obtain ⟨d, hd, rfl⟩ := (Table.mem_update hmoved.disputes).mp hd'
    have hbooking : (if expected t d then moved t d else d).bookingId = d.bookingId := by
      split <;> rfl
    rw [hbooking]
    exact (h.completed d hd).keeps hkeeps
  · obtain ⟨d, hd, rfl⟩ := (Table.mem_update hmoved.disputes).mp hd'
    have htrail := h.trail d hd
    have hid : (if expected t d then moved t d else d).id = d.id := by split <;> rfl
    rw [hid, hmoved.events]
    cases hstatus : t.status with
    | none =>
      have hsame : (if expected t d then moved t d else d).status = d.status := by
        split
        · simp [moved, hstatus]
        · rfl
      rw [hrecords.unchanged hstatus, Option.toList_none, List.append_nil, hsame]
      exact htrail
    | some s =>
      obtain ⟨hallowed, e, rfl, hdispute, hfrom, hto⟩ := hrecords.changed s hstatus
      rw [Option.toList_some, eventsOf_append, hdispute]
      by_cases hd₀ : expected t d
      · have hdid := (mem_expected hmoved.found hd).mp hd₀
        have hexpected : d.status = t.expectedStatus := by
          simp only [expected, Bool.and_eq_true, decide_eq_true_eq] at hd₀
          exact hd₀.2
        rw [if_pos hd₀, if_pos hdid.symm]
        have hmove : (moved t d).status = e.toStatus := by simp [moved, hstatus, hto]
        rw [hmove]
        rw [hexpected] at htrail
        exact .moved htrail hfrom (hto ▸ hallowed)
      · have hne : t.disputeId ≠ d.id := fun heq =>
          hd₀ ((mem_expected hmoved.found hd).mpr heq.symm)
        rw [if_neg hd₀, if_neg hne, List.append_nil]
        exact htrail
  · rw [← Table.mem_rows, hmoved.events, List.mem_append] at he
    rcases he with he | he
    · obtain ⟨d, hd, hid⟩ := h.recorded e he
      obtain ⟨d', hd', hid'⟩ := Table.exists_mem_update (R := fun d d' => d'.id = d.id)
        hmoved.disputes (fun _ => rfl) (fun _ => rfl) hd
      exact ⟨d', hd', hid'.trans hid⟩
    · exact hmoved.recorded e (Option.mem_toList.mp he)

/-! ## Runs -/

/-- **The outline.** -/
def history : code.Outline Machine.free where
  Inv db _ := Sound db
  At db _ p := At db p
  entry {db hist p} _ hp := by
    cases p with
    | openMembership | transition => trivial
    | openBooking | openExisting | opening | transitionManage | transitioning | returned
    | failed => cases hp
  read _ hat hread := at_read hread hat
  rolledBack {db hist p} _ hat := by
    cases p <;> trivial
  commit {s i c db} _ hinv hat _ hne hrep := by
    obtain ⟨pc, executed⟩ := c
    cases pc with
    | opening bookingId userId x =>
      refine ⟨hinv.opening hat hrep, trivial, fun j d _ _ hd => hd.keeps ?_⟩
      exact keepsCompleted_of_eq (by rw [(replay_opening hrep).2.1])
    | transitioning t event =>
      have hmoved := replay_transitioning hrep
      refine ⟨hinv.transitioning hat hmoved, trivial, fun j d _ _ hd => hd.keeps ?_⟩
      exact keepsCompleted_of_eq hmoved.bookings
    | openMembership | openBooking | openExisting | transition | transitionManage | returned
    | failed => exact absurd rfl hne
  outside {s tables db} _ hinv hx := by
    simp only [code, Option.ite_none_right_eq_some, Option.some.injEq] at hx
    obtain ⟨hkeeps, rfl⟩ := hx
    have hkeeps' : KeepsCompleted s.db.tables ({ s.db with tables } : Database).tables := hkeeps
    exact ⟨⟨fun d hd => (hinv.completed d hd).keeps hkeeps', hinv.trail, hinv.recorded⟩,
      fun _ _ hat => hat.keeps hkeeps'⟩

theorem holds_of_reachable {s : Sessions Database Point Empty}
    (hs : machine.Reachable Machine.free s) : history.Holds s := by
  refine Code.Outline.holds_of_reachable (fun db ⟨hdisputes, hevents⟩ => ?_) hs
  refine ⟨fun d hd => ?_, fun d hd => ?_, fun e he => ?_⟩
  · simp [← Table.mem_rows, hdisputes] at hd
  · simp [← Table.mem_rows, hdisputes] at hd
  · simp [← Table.mem_rows, hevents] at he

/-! ## Terminal statuses -/

/-- The dispute is there, with this status. -/
def HasStatus (db : Database) (id : Uuid) (status : DisputeStatus) : Prop :=
  ∃ d ∈ db.disputes, d.id = id ∧ d.status = status

/-- **No step leaves a terminal status.** -/
theorem hasStatus_step {s u : Sessions Database Point Empty}
    {l : Label Point Reading Bookings.Database} {id : Uuid} {status : DisputeStatus}
    (hholds : history.Holds s) (hstep : code.step s l = some u) (hterminal : status.terminal)
    (h : HasStatus s.db id status) : HasStatus u.db id status := by
  obtain ⟨d, hd, rfl, rfl⟩ := h
  rcases hholds.db_cases hstep with hdb | ⟨i, ⟨pc, executed⟩, -, -, hat, hne, hrep⟩ | ⟨tables, -, hx⟩
  · exact ⟨d, hdb ▸ hd, rfl, rfl⟩
  · cases pc with
    | opening bookingId userId x =>
      exact ⟨d, (Table.mem_insert (replay_opening hrep).1).mpr (.inl hd), rfl, rfl⟩
    | transitioning t event =>
      have hmoved := replay_transitioning hrep
      refine ⟨_, (Table.mem_update hmoved.disputes).mpr ⟨d, hd, rfl⟩, ?_, ?_⟩
      · split <;> rfl
      · split
        · next hexpected =>
          simp only [expected, Bool.and_eq_true, decide_eq_true_eq] at hexpected
          cases hstatus : t.status with
          | none => simp [moved, hstatus]
          | some s' =>
            have hallowed := (hat.changed s' hstatus).1
            rw [← hexpected.2, allowedTransitions_eq_nil hterminal] at hallowed
            cases hallowed
        · rfl
    | openMembership | openBooking | openExisting | transition | transitionManage | returned
    | failed => exact absurd rfl hne
  · simp only [code, Option.ite_none_right_eq_some, Option.some.injEq] at hx
    obtain ⟨-, hx⟩ := hx
    exact ⟨d, hx ▸ hd, rfl, rfl⟩

/-- …and so no run does. -/
theorem status_stable {s u : Sessions Database Point Empty} {id : Uuid} {status : DisputeStatus}
    (hs : machine.Reachable Machine.free s) (hrun : machine.Run Machine.free s u)
    (hterminal : status.terminal) (h : HasStatus s.db id status) : HasStatus u.db id status := by
  have hboth : history.Holds u ∧ HasStatus u.db id status :=
    hrun.invariant (I := fun u => history.Holds u ∧ HasStatus u.db id status)
      ⟨holds_of_reachable hs, h⟩ fun hu _ hstep =>
        ⟨hu.1.step trivial hstep, hasStatus_step hu.1 hstep hterminal hu.2⟩
  exact hboth.2

/-! ## Calls that lose -/

/-- **The call has lost**: the dispute has left the status that was read, or the resource action is
refused. -/
def Loses (db : Database) (t : Transition) : Prop :=
  (¬ ∃ d ∈ db.disputes, expected t d) ∨ Refused db t

/-- **A call that has lost changes nothing**: it cannot commit, and so stays where it is or fails. -/
theorem loses_step {s u : Sessions Database Point Empty} {l : Label Point Reading Bookings.Database}
    {i : ℕ} {c : Session Point} (hc : s.calls[i]? = some c) (hpc : c.pc = .transitioning t event)
    (hloses : Loses s.db t) (hl : l.of = some i) (hstep : code.step s l = some u) :
    u.db = s.db ∧ ∃ c', u.calls[i]? = some c' ∧ (c'.pc = c.pc ∨ ∃ e, c'.pc = .failed e) := by
  cases Code.call_cases hc hstep with
  | other hother _ => exact absurd hl hother
  | read hread =>
    rw [hpc] at hread
    cases hread
  | write hlt hdb hc' => exact ⟨hdb, _, hc', .inl rfl⟩
  | commit hne hrep hc' =>
    rw [hpc] at hrep
    rcases hloses with hnot | hrefused
    · exact absurd (replay_transitioning hrep).found hnot
    · exact absurd hrefused (not_refused_of_replay hrep)
  | rollback hdb hc' =>
    refine ⟨hdb, _, hc', .inr ⟨none, ?_⟩⟩
    rw [hpc]
    rfl

/-- **The state machine of disputes.**  In every state that an interleaving of `open` and
`transition` leads to: a dispute is the only one of its booking, which is completed; its events form
a trail to its status; it has a time of resolution exactly if its status is terminal, and then a
reviewer.  From there on no run takes it out of a terminal status, and a transition that loses a
race or whose resource action is refused leaves the database as it is. -/
theorem disputes_keep_history {s : Sessions Database Point Empty}
    (hs : machine.Reachable Machine.free s) :
    (∀ d ∈ s.db.disputes, (∀ d' ∈ s.db.disputes, d'.bookingId = d.bookingId → d' = d)
        ∧ IsCompleted s.db d.bookingId
        ∧ Trail (eventsOf s.db.events.rows d.id) d.status
        ∧ (d.resolvedAt.isSome ↔ d.status.terminal)
        ∧ (d.status.terminal → d.reviewedByUserId.isSome))
      ∧ (∀ u, machine.Run Machine.free s u → ∀ d ∈ s.db.disputes, d.status.terminal →
          HasStatus u.db d.id d.status)
      ∧ ∀ i c t event, s.calls[i]? = some c → c.pc = .transitioning t event → Loses s.db t →
          ∀ l u, l.of = some i → machine.step s l = some u →
            u.db = s.db ∧ ∃ c', u.calls[i]? = some c' ∧ (c'.pc = c.pc ∨ ∃ e, c'.pc = .failed e) := by
  have hsound : Sound s.db := (holds_of_reachable hs).inv
  refine ⟨fun d hd => ⟨fun d' hd' hbooking => ?_, hsound.completed d hd, hsound.trail d hd, ?_, ?_⟩,
    fun u hrun d hd hterminal => status_stable hs hrun hterminal ⟨d, hd, rfl, rfl⟩,
    fun i c t event hc hpc hloses l u hl hstep => loses_step hc hpc hloses hl hstep⟩
  · exact s.db.disputes.valid.2.1.eq hd' hd hbooking
  · rcases s.db.disputes.valid.2.2 d hd with ⟨hterminal, hresolved, -⟩ | ⟨hopen, hnone⟩
    · exact iff_of_true hresolved hterminal
    · exact iff_of_false (by rw [Option.isNone_iff_eq_none.mp hnone]; exact nofun) hopen
  · rcases s.db.disputes.valid.2.2 d hd with ⟨-, -, hreviewer⟩ | ⟨hopen, -⟩
    · exact fun _ => hreviewer
    · exact fun hterminal => absurd hterminal hopen

/-! ## One booking -/

/-- A member with completed bookings of a laboratory, and no disputes yet. -/
def undisputed : Sessions Database Point Empty where
  db :=
    { tables := Resources.twoDisputes.db.tables
      disputes := ⟨[], by decide⟩
      events := ⟨[], by decide⟩ }
  history := []
  calls := []

theorem undisputed_init : machine.init undisputed := ⟨⟨rfl, rfl⟩, rfl, rfl⟩

/-- The member disputes the first booking. -/
def openFirst : List (Label Point Reading Bookings.Database) :=
  [.call (.openMembership 30 ⟨1, some 100⟩), .read 0 {}, .read 0 {},
    .read 0 { disputeId := 50, eventId := 60 }, .write 0, .write 0, .commit 0]

/-- The administrator's request to move the dispute, as call `i`, up to its writes. -/
def request (i : ℕ) (dto : UpdateDisputeDto) (now : Timestamp) :
    List (Label Point Reading Bookings.Database) :=
  [.call (.transition 50 dto ⟨2, some 100⟩), .read i {},
    .read i { now, eventId := 60 + i }]

/-- A dispute is opened, and two requests to move it are made at once: the first to write resolves
it, and the other one fails. -/
theorem disputes_keep_history_of_race : ∃ s, machine.Reachable Machine.free s
    ∧ s.db.events.rows.map (fun e => (e.fromStatus, e.toStatus))
      = [(none, .opened), (some .opened, .resolved)]
    ∧ s.calls.map (·.pc) = [.returned, .failed none, .returned]
    ∧ ∀ d ∈ s.db.disputes, IsCompleted s.db d.bookingId
      ∧ Trail (eventsOf s.db.events.rows d.id) d.status := by
  obtain ⟨s, hs, hp⟩ := machine.exists_reachable (s := undisputed)
    (p := fun s => decide (s.db.events.rows.map (fun e => (e.fromStatus, e.toStatus))
        = [(none, .opened), (some .opened, .resolved)])
      && decide (s.calls.map (·.pc) = [.returned, .failed none, .returned]))
    (openFirst ++ request 1 { status := some .underReview } 40
      ++ request 2 { status := some .resolved, resolutionNotes := some "ok" } 41
      ++ [.write 2, .write 2, .write 2, .commit 2, .rollback 1])
    undisputed_init (by decide)
  simp only [Bool.and_eq_true, decide_eq_true_eq] at hp
  obtain ⟨hall, -, -⟩ := disputes_keep_history hs
  exact ⟨s, hs, hp.1, hp.2, fun d hd => ⟨(hall d hd).2.1, (hall d hd).2.2.1⟩⟩

end ResourceHive.Disputes
