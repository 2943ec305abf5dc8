import ResourceHive.Notifications.Consumer
import ResourceHive.Notifications.Translation

/-!
# Notifications/ExactlyOnce — the effects of a command, over all deliveries

However often the messages are delivered, to however many consumers, and wherever these fail, the
rows created for a command are those of one transaction (`AtMostOnce`), because a transaction leaves
its row in `processed_events`, where there is at most one of each; and an offset is committed only
when all messages before it are dealt with (`Settled`).
-/

namespace ResourceHive.Notifications

open NotificationSystem

variable {P : Platform} {log : Log} {first : TopicPartition → ℕ} {s t : NotificationSystem}

/-! ## What is claimed -/

/-- **An execution is one of the transaction**, for some answers of the database. -/
def Execution.Ran (P : Platform) (e : Execution) : Prop :=
  ∃ answers, processWithinTransaction P answers e.command =
    .ok (.created e.notification e.deliveries)

/-- The notifications created for a command; an id is the UUID that it writes. -/
def NotificationSystem.notificationsOf (s : NotificationSystem) (commandId : String) :
    List Notification :=
  (s.notifications.filter (uuid ·.1 = uuid commandId)).map (·.2)

/-- The deliveries created for a command. -/
def NotificationSystem.deliveriesOf (s : NotificationSystem) (commandId : String) :
    List QueuedDelivery :=
  (s.deliveries.filter (uuid ·.1 = uuid commandId)).map (·.2)

/-- **The rows created for a command are none, or those of one execution of its transaction.** -/
def AtMostOnce (P : Platform) (s : NotificationSystem) (commandId : String) : Prop :=
  (s.notificationsOf commandId = [] ∧ s.deliveriesOf commandId = []) ∨
    ∃ e ∈ s.executions, uuid e.command.commandId = uuid commandId ∧ e.Ran P ∧
      s.notificationsOf commandId = e.notification.toList ∧
      s.deliveriesOf commandId = e.deliveries

/-- **A message is dealt with**: a rejection of it is published, it asks for no command, or the
transaction of its command is committed, for this message or for another. -/
def Settled (P : Platform) (log : Log) (s : NotificationSystem) (source : TopicPartition)
    (offset : ℕ) : Prop :=
  (∃ r ∈ s.deadLetters, r.sourceTopic = source.topic.text ∧
    r.sourcePartition = source.partition ∧ r.sourceOffset = offset) ∨
  commandOf P source (log source offset).payload = .ok none ∨
  ∃ command, commandOf P source (log source offset).payload = .ok (some command) ∧
    ∃ e ∈ s.executions, uuid e.command.commandId = uuid command.commandId

/-! ## The invariant -/

/-- What holds of a consumer in a stage. -/
def Consumer.InStage (P : Platform) (log : Log) (s : NotificationSystem) (c : Consumer) : Prop :=
  match c.stage with
  | .claiming command | .claimed command =>
    commandOf P c.source (c.payload log) = .ok (some command)
  | .prepared e => commandOf P c.source (c.payload log) = .ok (some e.command) ∧ e.Ran P
  | .settled | .committed => Settled P log s c.source c.position
  | .idle | .received | .rejecting _ _ => True

/-- Where a consumer may be: all before its position is dealt with. -/
structure Consumer.Placed (P : Platform) (log : Log) (first : TopicPartition → ℕ)
    (s : NotificationSystem) (c : Consumer) : Prop where
  position : ∀ offset, first c.source ≤ offset → offset < c.position →
    Settled P log s c.source offset
  stage : c.InStage P log s

/-- **The invariant of the tables and of the offsets.** -/
structure Recorded (P : Platform) (log : Log) (first : TopicPartition → ℕ)
    (s : NotificationSystem) : Prop where
  events : s.processedEvents.rows = s.executions.map fun e => claimOf e.command
  notifications : s.notifications =
    s.executions.flatMap fun e => e.notification.toList.map (e.command.commandId, ·)
  deliveries : s.deliveries =
    s.executions.flatMap fun e => e.deliveries.map (e.command.commandId, ·)
  ran : ∀ e ∈ s.executions, e.Ran P
  offsets : ∀ source offset, first source ≤ offset → offset < s.offsets source →
    Settled P log s source offset

/-- **The invariant**, with that of the consumers. -/
structure ConsumersInv (P : Platform) (log : Log) (first : TopicPartition → ℕ)
    (s : NotificationSystem) : Prop extends Recorded P log first s where
  placed : ∀ c ∈ s.consumers, c.Placed P log first s

theorem inv_init (h : (consuming P log first).init s) : ConsumersInv P log first s := by
  obtain ⟨hevents, hnotifications, hdeliveries, hexecutions, -, hoffsets, hconsumers⟩ := h
  refine ⟨⟨?_, ?_, ?_, ?_, ?_⟩, ?_⟩
  · rw [hevents, hexecutions, List.map_nil]
  · rw [hnotifications, hexecutions, List.flatMap_nil]
  · rw [hdeliveries, hexecutions, List.flatMap_nil]
  · simp [hexecutions]
  · rw [hoffsets]
    exact fun source offset hle hlt => absurd hle (Nat.not_le.mpr hlt)
  · simp [hconsumers]

/-! ## What is dealt with stays so -/

/-- Nothing that was committed or published is lost. -/
def Grows (s t : NotificationSystem) : Prop :=
  (∀ r ∈ s.deadLetters, r ∈ t.deadLetters) ∧ ∀ e ∈ s.executions, e ∈ t.executions

theorem Settled.grows (h : Grows s t) {source : TopicPartition} {offset : ℕ}
    (hs : Settled P log s source offset) : Settled P log t source offset := by
  rcases hs with ⟨r, hr, hsource⟩ | hnone | ⟨command, hcommand, e, he, hid⟩
  · exact .inl ⟨r, h.1 r hr, hsource⟩
  · exact .inr (.inl hnone)
  · exact .inr (.inr ⟨command, hcommand, e, h.2 e he, hid⟩)

theorem Consumer.InStage.grows (h : Grows s t) {c : Consumer} (hc : c.InStage P log s) :
    c.InStage P log t := by
  unfold InStage at hc ⊢
  split at hc <;> first | exact hc | exact hc.grows h


theorem Consumer.inStage_afterError (c : Consumer) (e : Exception HandlerError) :
    Consumer.InStage P log s { c with stage := afterError e } := by
  unfold afterError
  split <;> trivial

/-- A row that is there already is that of a committed execution. -/
theorem ConsumersInv.settled_of_claimed (h : ConsumersInv P log first s)
    {command : NotificationCommandV1} (hmem : claimOf command ∈ s.processedEvents.rows) :
    ∃ e ∈ s.executions, uuid e.command.commandId = uuid command.commandId := by
  rw [h.events] at hmem
  obtain ⟨e, he, heq⟩ := List.mem_map.mp hmem
  exact ⟨e, he, congrArg ProcessedEvent.eventId heq⟩

/-- **The stage a consumer goes to**, leaving nothing behind. -/
theorem ConsumersInv.inStage_next (h : ConsumersInv P log first s) {c : Consumer}
    (hc : c.InStage P log s) {answers : Answers} {stage : Stage}
    (hnext : s.nextStage P log c answers = some stage) :
    Consumer.InStage P log s { c with stage } := by
  unfold nextStage at hnext
  split at hnext
  case h_1 =>
    obtain rfl := Option.some.inj hnext
    trivial
  case h_2 =>
    split at hnext
    case h_1 hcommand =>
      obtain rfl := Option.some.inj hnext
      exact .inr (.inl hcommand)
    case h_2 command hcommand =>
      obtain rfl := Option.some.inj hnext
      exact hcommand
    case h_3 e _ =>
      obtain rfl := Option.some.inj hnext
      exact c.inStage_afterError e
  case h_3 command hstage =>
    have hcommand : commandOf P c.source (c.payload log) = .ok (some command) := by
      simpa only [Consumer.InStage, hstage] using hc
    split_ifs at hnext with hwait hmem
    · obtain rfl := Option.some.inj hnext
      exact .inr (.inr ⟨command, hcommand, h.settled_of_claimed hmem⟩)
    · obtain rfl := Option.some.inj hnext
      exact hcommand
  case h_4 command hstage =>
    have hcommand : commandOf P c.source (c.payload log) = .ok (some command) := by
      simpa only [Consumer.InStage, hstage] using hc
    split at hnext
    case h_1 notification deliveries hran =>
      obtain rfl := Option.some.inj hnext
      exact ⟨hcommand, _, hran⟩
    case h_2 => cases hnext
    case h_3 e _ =>
      obtain rfl := Option.some.inj hnext
      exact c.inStage_afterError e
  case h_5 => cases hnext

theorem Consumer.Placed.grows (h : Grows s t) {c : Consumer} (hc : c.Placed P log first s) :
    c.Placed P log first t :=
  ⟨fun offset hle hlt => (hc.position offset hle hlt).grows h, hc.stage.grows h⟩

/-- **One consumer moves**, in tables that have grown. -/
theorem ConsumersInv.goTo (h : ConsumersInv P log first s) (ht : Recorded P log first t)
    (hgrows : Grows s t) (hconsumers : t.consumers = s.consumers) {i : ℕ} {c : Consumer}
    (hc : c.Placed P log first t) : ConsumersInv P log first (t.goTo i c) where
  events := ht.events
  notifications := ht.notifications
  deliveries := ht.deliveries
  ran := ht.ran
  offsets := ht.offsets
  placed d hd := by
    have hd : d ∈ t.consumers.set i c := hd
    rcases List.mem_or_eq_of_mem_set hd with hd | rfl
    · have hgrows : Grows s (t.goTo i c) := hgrows
      exact (h.placed d (hconsumers ▸ hd)).grows hgrows
    · exact ⟨hc.position, hc.stage⟩

theorem Grows.refl (s : NotificationSystem) : Grows s s := ⟨fun _ => id, fun _ => id⟩

theorem grows_commitTransaction (T : ProcessedEvents) (e : Execution) :
    Grows s (s.commitTransaction T e) :=
  ⟨fun _ => id, fun _ => List.mem_append_left _⟩

theorem grows_publish (c : Consumer) (errorCode errorMessage : String) :
    Grows s (s.publish log c errorCode errorMessage) :=
  ⟨fun _ => List.mem_append_left _, fun _ => id⟩

theorem Recorded.commitTransaction (h : Recorded P log first s) {T : ProcessedEvents}
    {e : Execution} (hT : s.processedEvents.insert (claimOf e.command) = some T) (he : e.Ran P) :
    Recorded P log first (s.commitTransaction T e) where
  events := by
    change T.rows = (s.executions ++ [e]).map _
    rw [Table.insert_eq_some.mp hT, h.events, List.map_append]
    rfl
  notifications := by
    change s.notifications ++ _ = (s.executions ++ [e]).flatMap _
    rw [List.flatMap_append, ← h.notifications, List.flatMap_singleton]
  deliveries := by
    change s.deliveries ++ _ = (s.executions ++ [e]).flatMap _
    rw [List.flatMap_append, ← h.deliveries, List.flatMap_singleton]
  ran e' he' := by
    rcases List.mem_append.mp he' with he' | he'
    · exact h.ran e' he'
    · obtain rfl := List.mem_singleton.mp he'
      exact he
  offsets source offset hle hlt :=
    (h.offsets source offset hle hlt).grows (grows_commitTransaction T e)

theorem Recorded.publish (h : Recorded P log first s) (c : Consumer)
    (errorCode errorMessage : String) :
    Recorded P log first (s.publish log c errorCode errorMessage) where
  events := h.events
  notifications := h.notifications
  deliveries := h.deliveries
  ran := h.ran
  offsets source offset hle hlt :=
    (h.offsets source offset hle hlt).grows (grows_publish c errorCode errorMessage)

theorem Recorded.commitOffset (h : Recorded P log first s) {c : Consumer}
    (hc : c.Placed P log first s) (hsettled : Settled P log s c.source c.position) :
    Recorded P log first (s.commitOffset c) where
  events := h.events
  notifications := h.notifications
  deliveries := h.deliveries
  ran := h.ran
  offsets source offset hle hlt := by
    have hlt : offset < Function.update s.offsets c.source (c.position + 1) source := hlt
    by_cases hsource : source = c.source
    · subst hsource
      rw [Function.update_self] at hlt
      rcases Nat.lt_succ_iff_lt_or_eq.mp hlt with hlt | rfl
      · exact hc.position offset hle hlt
      · exact hsettled
    · rw [Function.update_of_ne hsource] at hlt
      exact h.offsets source offset hle hlt

/-- **The step lemma.** -/
theorem inv_step (h : ConsumersInv P log first s) {l : Happening}
    (hstep : s.step P log l = some t) : ConsumersInv P log first t := by
  cases step_cases hstep with
  | @assign source position hle =>
    have hgrows : Grows s { s with consumers := s.consumers ++ [⟨source, position, .idle⟩] } :=
      ⟨fun _ => id, fun _ => id⟩
    refine ⟨⟨h.events, h.notifications, h.deliveries, h.ran, h.offsets⟩, fun c hc => ?_⟩
    rcases List.mem_append.mp hc with hc | hc
    · exact (h.placed c hc).grows hgrows
    · obtain rfl := List.mem_singleton.mp hc
      exact ⟨fun offset hfirst hlt => h.offsets source offset hfirst (hlt.trans_le hle), trivial⟩
  | fail hc =>
    have hplaced := h.placed _ (List.mem_of_getElem? hc)
    exact h.goTo h.toRecorded (.refl s) rfl ⟨hplaced.position, trivial⟩
  | stage hc hnext =>
    have hplaced := h.placed _ (List.mem_of_getElem? hc)
    exact h.goTo h.toRecorded (.refl s) rfl
      ⟨hplaced.position, h.inStage_next hplaced.stage hnext⟩
  | @transaction i c answers e T hc hstage hT =>
    have hplaced := h.placed _ (List.mem_of_getElem? hc)
    obtain ⟨hcommand, hran⟩ : commandOf P c.source (c.payload log) = .ok (some e.command) ∧
        e.Ran P := by
      simpa only [Consumer.InStage, hstage] using hplaced.stage
    have hgrows := grows_commitTransaction (s := s) T e
    refine h.goTo (h.toRecorded.commitTransaction hT hran) hgrows rfl
      ⟨(hplaced.grows hgrows).position, ?_⟩
    exact .inr (.inr ⟨e.command, hcommand, e, List.mem_append_right _ (List.mem_singleton_self e),
      rfl⟩)
  | @publish i c answers errorCode errorMessage hc hstage =>
    have hplaced := h.placed _ (List.mem_of_getElem? hc)
    have hgrows : Grows s (s.publish log c errorCode errorMessage) :=
      grows_publish c errorCode errorMessage
    refine h.goTo (h.toRecorded.publish c errorCode errorMessage) hgrows rfl
      ⟨(hplaced.grows hgrows).position, ?_⟩
    exact .inl ⟨_, List.mem_append_right _ (List.mem_singleton_self _), rfl, rfl, rfl⟩
  | @offset i c answers hc hstage =>
    have hplaced := h.placed _ (List.mem_of_getElem? hc)
    have hsettled : Settled P log s c.source c.position := by
      simpa only [Consumer.InStage, hstage] using hplaced.stage
    exact h.goTo (h.toRecorded.commitOffset hplaced hsettled) (.refl s) rfl
      ⟨hplaced.position, hsettled⟩
  | @next i c answers hc hstage =>
    have hplaced := h.placed _ (List.mem_of_getElem? hc)
    have hsettled : Settled P log s c.source c.position := by
      simpa only [Consumer.InStage, hstage] using hplaced.stage
    refine h.goTo h.toRecorded (.refl s) rfl ⟨fun offset hle hlt => ?_, trivial⟩
    rcases Nat.lt_succ_iff_lt_or_eq.mp hlt with hlt | rfl
    · exact hplaced.position offset hle hlt
    · exact hsettled

/-- **The run lemma.** -/
theorem inv_of_reachable (h : (consuming P log first).Reachable Machine.free s) :
    ConsumersInv P log first s :=
  h.invariant inv_init fun hinv _ hstep => inv_step hinv hstep

/-! ## Exactly once -/

/-- Rows tagged by where they come from, and those of some tags. -/
theorem map_filter_flatMap {α β γ : Type} (tag : α → γ) (rows : α → List β) (p : γ → Bool) :
    ∀ l : List α, ((l.flatMap fun a => (rows a).map (tag a, ·)).filter (p ·.1)).map (·.2) =
      (l.filter fun a => p (tag a)).flatMap rows
  | [] => rfl
  | a :: l => by
      rw [List.flatMap_cons, List.filter_append, List.map_append, map_filter_flatMap tag rows p l]
      cases h : p (tag a) <;> simp [List.filter_map, Function.comp_def, h]

/-- **The rows of a command are those of one execution.** -/
theorem Recorded.atMostOnce (h : Recorded P log first s) (commandId : String) :
    AtMostOnce P s commandId := by
  have hunique : Table.Unique (fun e : Execution => uuid e.command.commandId) s.executions := by
    have hvalid := s.processedEvents.valid
    rw [h.events, Table.Unique, List.map_map] at hvalid
    exact List.Nodup.of_map (f := fun id => (id, _)) (by rwa [List.map_map])
  have hnotifications : s.notificationsOf commandId =
      (s.executions.filter fun e => uuid e.command.commandId = uuid commandId).flatMap
        fun e => e.notification.toList := by
    rw [notificationsOf, h.notifications]
    exact map_filter_flatMap (fun e : Execution => e.command.commandId) _ (uuid · = uuid commandId) _
  have hdeliveries : s.deliveriesOf commandId =
      (s.executions.filter fun e => uuid e.command.commandId = uuid commandId).flatMap
        fun e => e.deliveries := by
    rw [deliveriesOf, h.deliveries]
    exact map_filter_flatMap (fun e : Execution => e.command.commandId) _ (uuid · = uuid commandId) _
  rw [AtMostOnce, hnotifications, hdeliveries]
  rcases hunique.filter_eq (uuid commandId) with hnil | ⟨e, he, hid, hone⟩
  · rw [hnil]
    exact .inl ⟨rfl, rfl⟩
  · rw [hone]
    exact .inr ⟨e, he, hid, h.ran e he, by simp, by simp⟩

/-- **Exactly-once effects**: in every run of the consumers, over every log, the rows created for a
command are those of at most one execution of its transaction; and whatever is below the offset that
a step leaves committed, was dealt with before the step. -/
theorem effects_exactly_once (P : Platform) (log : Log) (first : TopicPartition → ℕ)
    (s : NotificationSystem) (h : (consuming P log first).Reachable Machine.free s) :
    (∀ commandId, AtMostOnce P s commandId) ∧
      ∀ l t, (consuming P log first).step s l = some t →
        ∀ source offset, first source ≤ offset → offset < t.offsets source →
          Settled P log s source offset := by
  have hinv := inv_of_reachable h
  refine ⟨hinv.atMostOnce, fun l t hstep source offset hle hlt => ?_⟩
  have hstep : s.step P log l = some t := hstep
  cases step_cases hstep with
  | assign | fail | stage | transaction | publish | next =>
    exact hinv.offsets source offset hle hlt
  | offset =>
    have hsettled := (inv_step hinv hstep).offsets source offset hle hlt
    exact hsettled.grows ⟨fun _ => id, fun _ => id⟩

/-- A log that holds the same event over and over. -/
def repeatedLog : Log := fun _ _ => ⟨none, confirmedInput "Robotics Lab"⟩

/-- The database before anything was consumed. -/
def nothingConsumed : NotificationSystem where
  processedEvents := ⟨[], List.nodup_nil⟩
  notifications := []
  deliveries := []
  executions := []
  deadLetters := []
  offsets := fun _ => 0
  consumers := []

/-- What a database answers in which the recipient is a member, with one subscription. -/
def memberAnswers : Answers :=
  ⟨true, some ⟨"22222222-2222-4222-8222-222222222222", "member@example.edu"⟩, true, ["token"],
    "77777777-7777-4777-8777-777777777777"⟩

/-- One message handled by two consumers: the second waits for the first one's transaction, and
finds a duplicate. -/
theorem consumed_once : ∃ s, (consuming Platform.sample repeatedLog fun _ => 0).Reachable
    Machine.free s ∧ (s.notifications.length = 1 ∧ s.deliveries.length = 1 ∧
      s.offsets ⟨.bookingEvents, 0⟩ = 1 ∧ s.consumers.length = 2) := by
  have hrun := Machine.exists_reachable
    (M := consuming Platform.sample repeatedLog fun _ => 0) (s := nothingConsumed)
    (p := fun s => decide (s.notifications.length = 1 ∧ s.deliveries.length = 1 ∧
      s.offsets ⟨.bookingEvents, 0⟩ = 1 ∧ s.consumers.length = 2))
    [.assign ⟨.bookingEvents, 0⟩ 0, .assign ⟨.bookingEvents, 0⟩ 0, .advance 0 memberAnswers,
      .advance 1 memberAnswers, .advance 0 memberAnswers, .advance 1 memberAnswers,
      .advance 0 memberAnswers, .advance 0 memberAnswers, .advance 0 memberAnswers,
      .advance 1 memberAnswers, .advance 1 memberAnswers]
    ⟨rfl, rfl, rfl, rfl, rfl, rfl, rfl⟩ (by decide +kernel)
  obtain ⟨s, hs, hp⟩ := hrun
  exact ⟨s, hs, of_decide_eq_true hp⟩

/-- …and what the theorem says of it. -/
theorem effects_of_consumed_once : ∃ s,
    (s.notifications.length = 1 ∧ s.deliveries.length = 1 ∧
      s.offsets ⟨.bookingEvents, 0⟩ = 1 ∧ s.consumers.length = 2) ∧
    (∀ commandId, AtMostOnce Platform.sample s commandId) ∧
      ∀ l t, (consuming Platform.sample repeatedLog fun _ => 0).step s l = some t →
        ∀ source offset, 0 ≤ offset → offset < t.offsets source →
          Settled Platform.sample repeatedLog s source offset := by
  obtain ⟨s, hs, hp⟩ := consumed_once
  exact ⟨s, hp, effects_exactly_once _ _ _ s hs⟩

end ResourceHive.Notifications
