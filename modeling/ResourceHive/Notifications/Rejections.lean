import ResourceHive.Notifications.Processing

/-!
# Notifications/Rejections — malformed messages are dead-lettered

Whatever the payload of a command is, its handler throws nothing but permanent rejections: the
parser of commands looks at no value before its type, and a command that it accepts can be rendered.
`parseBookingEvent` reads properties of an input that may be `null` and trims a resource name that
may be anything, and the gateway puts the user of any event into the name of a room; on such inputs
a `TypeError` is thrown on and the offset of the message is never committed (`deadLettered_iff`).
-/

namespace ResourceHive.Notifications

variable {P : Platform}

/-! ## The variables of an accepted template -/

theorem requireString_eq_ok {p : String → Bool} {value : Option Json} {field s : String} :
    requireString p value field = .ok s ↔ value = some (.str s) ∧ p s := by
  unfold requireString
  split
  · next t =>
    by_cases hp : p t
    · rw [if_pos hp]
      constructor
      · rintro ⟨⟩
        exact ⟨rfl, hp⟩
      · rintro ⟨⟨⟩, -⟩
        rfl
    · rw [if_neg hp]
      constructor
      · rintro ⟨⟩
      · rintro ⟨⟨⟩, h⟩
        exact absurd h hp
  · next h => exact ⟨nofun, fun ⟨hv, _⟩ => absurd hv (h s)⟩

theorem onlyIf_eq_ok {p : Bool} {x : Attempt Unit} {u : Unit} :
    onlyIf p x = .ok u ↔ (p = true → x = .ok ()) := by
  cases p with
  | false => exact ⟨fun _ => nofun, fun _ => rfl⟩
  | true => exact ⟨fun h _ => h, fun h => h rfl⟩

/-- What `requireVariable` asks for. -/
theorem requireVariable_eq_ok {members : List (String × Json)} {name : String} {max : ℕ} {u : Unit} :
    requireVariable (.obj members) name max = .ok u ↔
      ∃ s, (Json.obj members).member? name = some (.str s) ∧ trim s ≠ "" ∧ utf16Length s ≤ max := by
  rw [requireVariable, property_obj, ok_bind, bind_eq_ok]
  simp only [requireText, requireString_eq_ok, Bool.and_eq_true, decide_eq_true_eq]
  constructor
  · rintro ⟨s, h, -⟩
    exact ⟨s, h⟩
  · rintro ⟨s, h⟩
    exact ⟨s, h, rfl⟩

theorem requireTemplateValue_eq_ok {v : String × Json} {w : String × TemplateValue} :
    requireTemplateValue v = .ok w ↔ w.1 = v.1 ∧ templateValue v.2 = some w.2 := by
  unfold requireTemplateValue
  split
  · next t ht =>
    rw [ht, Except.ok.injEq, Prod.ext_iff, Option.some.injEq]
    exact and_congr_left' eq_comm
  · next ht => exact ⟨nofun, fun ⟨_, h⟩ => by simp [ht] at h⟩

/-- **The variables of a template are the members of the object**, at their types. -/
theorem get?_of_mapM {name : String} : ∀ {members : List (String × Json)} {vars : TemplateVariables},
    members.mapM requireTemplateValue = .ok vars →
      vars.get? name = ((Json.obj members).member? name).bind templateValue
  | [], vars, h => by
      obtain rfl := Except.ok.inj h
      rfl
  | v :: members, vars, h => by
      rw [List.mapM_cons] at h
      obtain ⟨w, hw, h⟩ := bind_eq_ok.mp h
      obtain ⟨ws, hws, h⟩ := bind_eq_ok.mp h
      obtain rfl := Except.ok.inj h
      have ih : TemplateVariables.get? ws name = _ := get?_of_mapM hws
      obtain ⟨hname, hvalue⟩ := requireTemplateValue_eq_ok.mp hw
      rw [TemplateVariables.get?_cons, Json.member?_cons, hname]
      split
      · exact hvalue.symm
      · exact ih


/-- The variables a key is rendered with. -/
def requiredVariables : NotificationTemplateKey → List String
  | .identityVerifyEmail => ["verificationUrl"]
  | .identityPasswordReset => ["resetUrl"]
  | .message => ["title", "message"]
  | _ => []

/-- **The variables that `render` asks for are there.** -/
def Renderable (template : NotificationTemplate) : Prop :=
  ∀ name ∈ requiredVariables template.key, (variableText template.vars name).isSome

theorem required_ok {template : NotificationTemplate} (h : Renderable template) {name : String}
    (hname : name ∈ requiredVariables template.key) :
    ∃ s, required template.vars name = .ok s := by
  obtain ⟨s, hs⟩ := Option.isSome_iff_exists.mp (h name hname)
  exact ⟨s, by rw [required, hs]⟩

/-- **Such a template is rendered.** -/
theorem render_ok {template : NotificationTemplate} (h : Renderable template) :
    ∃ rendered, render P template = .ok rendered := by
  obtain ⟨key, vars⟩ := template
  have hreq {name : String} (hname : name ∈ requiredVariables key) := required_ok h hname
  cases key with
  | identityVerifyEmail =>
    obtain ⟨url, hurl⟩ := hreq (List.mem_singleton.mpr rfl)
    exact ⟨_, by rw [render, renderIdentityEmail, hurl]; rfl⟩
  | identityPasswordReset =>
    obtain ⟨url, hurl⟩ := hreq (List.mem_singleton.mpr rfl)
    exact ⟨_, by rw [render, renderIdentityEmail, hurl]; rfl⟩
  | message =>
    obtain ⟨title, htitle⟩ := hreq (List.mem_cons_self ..)
    obtain ⟨message, hmessage⟩ := hreq (List.mem_cons_of_mem _ (List.mem_cons_self ..))
    exact ⟨_, by rw [render, htitle, hmessage]; rfl⟩
  | identityPasswordChanged | membershipApproved | membershipRejected | bookingConfirmed
  | bookingCancelled | bookingCompleted | developmentTestPush => exact ⟨_, rfl⟩

/-- What a variable that was required gives. -/
theorem variableText_of_requireVariable {members : List (String × Json)} {vars : TemplateVariables}
    (hvars : members.mapM requireTemplateValue = .ok vars) {name : String} {max : ℕ} {u : Unit}
    (h : requireVariable (.obj members) name max = .ok u) : (variableText vars name).isSome := by
  obtain ⟨s, hs, hblank, -⟩ := requireVariable_eq_ok.mp h
  simp only [variableText, get?_of_mapM hvars, hs, Option.bind_some, templateValue]
  rw [if_pos hblank]
  rfl

/-- **The variables that a key is rendered with are those that the contract requires of it.** -/
theorem renderable_of_validate {key : NotificationTemplateKey} {members : List (String × Json)}
    {vars : TemplateVariables} (hvars : members.mapM requireTemplateValue = .ok vars)
    {u : Unit} (h : validateTemplateVariables key (.obj members) = .ok u) :
    Renderable ⟨key, vars⟩ := by
  simp only [validateTemplateVariables, bind_eq_ok, onlyIf_eq_ok, decide_eq_true_eq] at h
  obtain ⟨_, hverify, _, hreset, _, _, _, _, _, hmessage, _⟩ := h
  intro name hname
  cases key with
  | identityVerifyEmail =>
    obtain rfl := List.mem_singleton.mp hname
    exact variableText_of_requireVariable hvars (hverify rfl)
  | identityPasswordReset =>
    obtain rfl := List.mem_singleton.mp hname
    obtain ⟨_, hurl, _⟩ := hreset rfl
    exact variableText_of_requireVariable hvars hurl
  | message =>
    obtain ⟨_, htitle, htext⟩ := hmessage rfl
    obtain rfl | hname := List.mem_cons.mp hname
    · exact variableText_of_requireVariable hvars htitle
    · obtain rfl := List.mem_singleton.mp hname
      exact variableText_of_requireVariable hvars htext
  | identityPasswordChanged | membershipApproved | membershipRejected | bookingConfirmed
  | bookingCancelled | bookingCompleted | developmentTestPush => cases hname

theorem renderable_of_parseTemplate (producer : NotificationProducer)
    (channels : List NotificationChannel) (value : Option Json) :
    Returns Renderable (parseTemplate P producer channels value) := by
  refine .bind fun template htemplate => ?_
  obtain ⟨members, rfl, -⟩ := requireObject_eq_ok.mp htemplate
  refine .bind fun _ _ => .bind fun key _ => ?_
  split
  · exact nofun
  · refine .bind fun _ _ => .bind fun _ _ => .bind fun _ _ => .bind fun vars hvars => ?_
    obtain ⟨variableMembers, rfl, -⟩ := requireObject_eq_ok.mp hvars
    refine .bind fun values hvalues => .bind fun _ hvalidate => ?_
    exact returns_ok (renderable_of_validate hvalues hvalidate)

/-- **Whatever command is accepted, it can be rendered.** -/
theorem renderable_of_parse (input : Json) :
    Returns (fun command => Renderable command.template) (parseNotificationCommand P input) := by
  refine .bind fun value hvalue => ?_
  obtain ⟨members, rfl, -⟩ := requireObject_eq_ok.mp hvalue
  simp only [property_obj, ok_bind]
  refine .bind fun _ _ => .bind fun _ _ => .bind fun _ _ => .bind fun _ _ => .bind fun _ _ => ?_
  refine .bind fun _ _ => .bind fun _ _ => .bind fun _ _ => .bind fun template htemplate => ?_
  exact returns_ok (renderable_of_parseTemplate _ _ _ _ htemplate)

/-! ## What is thrown by the handlers -/

/-- **A permanent rejection or nothing.** -/
def Permanent {α : Type} (x : Attempt α) : Prop :=
  Throws (fun e => (permanentRejection (.thrown e)).isSome) x

theorem Rejects.permanent {α : Type} {x : Attempt α} (h : Rejects x) : Permanent x :=
  h.mono fun _ ⟨_, he⟩ => he ▸ rfl

theorem permanent_refuse (p : Bool) (message : String) :
    Permanent (refuse p (.unauthorized message)) := throws_refuse rfl

theorem permanent_processWithinTransaction (answers : Answers) {command : NotificationCommandV1}
    (h : Renderable command.template) : Permanent (processWithinTransaction P answers command) := by
  rw [processWithinTransaction]
  refine Throws.ite (fun _ => throws_ok _) fun _ => ?_
  cases answers.user with
  | none => exact throws_thrown rfl
  | some user =>
    refine (permanent_refuse _ _).bind fun _ _ => ?_
    obtain ⟨rendered, hrendered⟩ := render_ok h
    rw [hrendered, ok_bind]
    exact throws_ok _

theorem permanent_process (answers : Answers) (input : Json) :
    Permanent (process P (processWithinTransaction P answers) input) := by
  refine (rejects_parseNotificationCommand input).permanent.bind fun command hcommand => ?_
  refine (permanent_refuse _ _).bind fun _ _ => ?_
  refine (permanent_refuse _ _).bind fun _ _ => ?_
  exact permanent_processWithinTransaction answers (renderable_of_parse _ _ hcommand)

theorem permanent_ok {α : Type} (a : α) : Permanent (.ok a) := throws_ok a

theorem permanent_error {α : Type} {e : Exception HandlerError} :
    Permanent (α := α) (.error e) ↔ (permanentRejection e).isSome := by
  cases e with
  | typeError => exact ⟨fun h => absurd h not_throws_typeError, nofun⟩
  | thrown e =>
    refine ⟨fun h => ?_, fun h => throws_thrown h⟩
    obtain ⟨_, ⟨⟩, ht⟩ := h _ rfl
    exact ht

/-- **A message is committed if its handler throws nothing but permanent rejections.** -/
theorem committed_iff {α : Type} {payload : Json} {context : KafkaContext} {x : Attempt α} :
    (∃ rejection, processMessage payload context x = .committed (context.offset + 1) rejection) ↔
      Permanent x := by
  cases x with
  | ok a => exact ⟨fun _ => throws_ok a, fun _ => ⟨_, rfl⟩⟩
  | error e =>
    rw [permanent_error]
    cases he : permanentRejection e with
    | none => simp [processMessage, he]
    | some r => simp [processMessage, he]

/-! ## Booking events -/

/-- A value that goes into the name of a room, if it is truthy. -/
def Printable (P : Platform) (value : Option Json) : Prop :=
  truthy value → ∀ v, value = some v → (v.text P.number).isSome

theorem interpolate_of_isTextWith {p : String → Bool} {value : Option Json}
    (h : isTextWith p value) : ∃ s, interpolate P value = .ok s := by
  obtain ⟨s, rfl, -⟩ := isTextWith_eq_true.mp h
  exact ⟨s, rfl⟩

theorem printable_of_isTextWith {p : String → Bool} {value : Option Json}
    (h : isTextWith p value) : Printable P value := by
  obtain ⟨s, rfl, -⟩ := isTextWith_eq_true.mp h
  rintro - _ ⟨⟩
  rfl

theorem permanent_interpolate_bind {α : Type} {value : Option Json} {f : String → α} :
    Permanent (interpolate P value >>= fun s => .ok (f s)) ↔
      ∀ v, value = some v → (v.text P.number).isSome := by
  cases value with
  | none => exact ⟨fun _ => nofun, fun _ => throws_ok _⟩
  | some v =>
    cases ht : v.text P.number with
    | none =>
      have hfails : interpolate P (some v) = .error .typeError := by rw [interpolate, ht]
      rw [hfails]
      exact ⟨fun h => absurd h not_throws_typeError, fun h => by simpa [ht] using h v rfl⟩
    | some s => simp [interpolate, ht, permanent_ok]

/-- **What `emitBookingEvent` needs.** -/
theorem permanent_emitBookingEvent {event : ParsedBookingEvent} (h : Located P event.payload) :
    Permanent (emitBookingEvent P event) ↔ Printable P (event.payload.member? "userId") := by
  obtain ⟨resource, hresource⟩ := interpolate_of_isTextWith (P := P) h.resourceId
  obtain ⟨organization, horganization⟩ := interpolate_of_isTextWith (P := P) h.organizationId
  simp only [emitBookingEvent, property_some h.ne_null, ok_bind, hresource, horganization]
  split
  · next ht =>
    rw [Printable, ht]
    exact permanent_interpolate_bind.trans ⟨fun h _ => h, fun h => h rfl⟩
  · next ht => exact ⟨fun _ htruthy => absurd htruthy ht, fun _ => throws_ok _⟩

theorem Permanent.of_bind {α β : Type} {x : Attempt α} {f : α → Attempt β}
    (h : Permanent (x >>= f)) : Permanent x := by
  cases x with
  | error e => exact permanent_error.mpr (permanent_error.mp h)
  | ok a => exact throws_ok a

/-- **What `handle` needs of an input**: no operation of the parser fails, and the user of an event
that creates a slot, of whom nothing is checked, can go into the name of a room. -/
def Handleable (P : Platform) (payload : Json) : Prop :=
  WellTyped P payload ∧ ∀ event, BookingEventAccepted P payload event →
    event.eventType = .slotCreated → Printable P (event.payload.member? "userId")

theorem BookingEventAccepted.printable {payload : Json} {event : ParsedBookingEvent}
    (h : BookingEventAccepted P payload event)
    (hslot : event.eventType = .slotCreated → Printable P (event.payload.member? "userId")) :
    Printable P (event.payload.member? "userId") := by
  by_cases ht : event.eventType = .slotCreated
  · exact hslot ht
  · exact printable_of_isTextWith (h.accepted.lifecycle ht).2

theorem permanent_handle (answers : Answers) {payload : Json} (h : Handleable P payload) :
    Permanent (handle P (processWithinTransaction P answers) payload) := by
  refine (rejects_parseBookingEvent h.1).permanent.bind fun event hevent => ?_
  have haccepted := parseBookingEvent_eq_ok.mp hevent
  refine Throws.bind ((permanent_emitBookingEvent haccepted.accepted.toLocated).mpr
    (haccepted.printable (h.2 event haccepted))) fun _ _ => ?_
  refine Throws.ite (fun _ => throws_ok _) fun _ => ?_
  exact (permanent_process answers _).bind fun _ _ => throws_ok _

/-! ## Malformed messages -/

/-- **A payload does no harm by its shape**: the parsers return or throw a
`NotificationContractError`, and on either kind of topic, whatever the database answers, the offset
of its message is committed. -/
def DeadLettered (P : Platform) (payload : Json) : Prop :=
  Rejects (parseBookingEvent P payload) ∧ Rejects (parseNotificationCommand P payload) ∧
    ∀ (context : KafkaContext) (answers : Answers),
      (∃ rejection, processMessage payload context
        (process P (processWithinTransaction P answers) payload) =
          .committed (context.offset + 1) rejection) ∧
      ∃ rejection, processMessage payload context
        (handle P (processWithinTransaction P answers) payload) =
          .committed (context.offset + 1) rejection

/-- **Exactly the payloads on which no operation of the parser of events, or of the gateway, fails
are always committed or dead-lettered.** -/
theorem deadLettered_iff (P : Platform) (payload : Json) :
    DeadLettered P payload ↔ Handleable P payload := by
  constructor
  · rintro ⟨hevent, -, hmessages⟩
    refine ⟨rejects_parseBookingEvent_iff.mp hevent, fun event haccepted _ => ?_⟩
    have hhandle := committed_iff.mp (hmessages ⟨"", 0, 0, none⟩ ⟨false, none, false, [], ""⟩).2
    rw [handle, parseBookingEvent_eq_ok.mpr haccepted] at hhandle
    exact (permanent_emitBookingEvent haccepted.accepted.toLocated).mp
      (Permanent.of_bind hhandle)
  · intro h
    refine ⟨rejects_parseBookingEvent h.1, rejects_parseNotificationCommand payload,
      fun context answers => ⟨?_, ?_⟩⟩
    · exact committed_iff.mpr (permanent_process answers payload)
    · exact committed_iff.mpr (permanent_handle answers h)

/-- **`null` is redelivered for ever**: the parser of events fails on it, and its offset is not
committed. -/
theorem null_rethrown :
    parseBookingEvent Platform.sample .null = .error .typeError ∧
      processMessage .null ⟨"resourcehive.booking.events.v1", 0, 41, none⟩
        (handle Platform.sample (processWithinTransaction Platform.sample
          ⟨true, none, false, [], ""⟩) .null) = .rethrown .typeError ∧
      ¬ DeadLettered Platform.sample .null :=
  ⟨rfl, rfl, fun h => not_throws_typeError h.1⟩

end ResourceHive.Notifications
